set_option autoImplicit false

namespace TemplateBinding

-- Beside a library of algebra `^` has several readings, which agree; here it is always the power
-- of the numbers themselves.
attribute [scoped instance (2000)] instPowNat

-- A literal exponent, whose type is left open, is a natural number.
attribute [default_instance 20000] instPowNat

end TemplateBinding
