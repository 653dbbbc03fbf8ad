/-!
# Powers of numbers

The powers in this library are those that the numbers of the core library have, also in a module
whose imports bring powers of other structures.
-/

set_option autoImplicit false

attribute [instance (20000), default_instance (20000)] instPowNat
