import TemplateBinding.Entries

set_option autoImplicit false

namespace TemplateBinding

inductive Json where
  | null
  | boolean (b : Bool)
  | integer (n : Int)
  | float (x : Float)
  | string (s : String)
  | array (items : List Json)
  | object (entries : List (String × Json))
  deriving Inhabited

end TemplateBinding
