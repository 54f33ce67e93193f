import BlockConfig.Reader

set_option autoImplicit false

namespace BlockConfig

structure Config where
  document : Document
  source : Text

namespace Config

def ofSource (source : Text) : Except Error Config :=
  (Document.ofSource source).map fun document => ⟨document, source⟩

end Config
end BlockConfig
