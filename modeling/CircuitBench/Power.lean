/-!
# Powers of natural numbers

There is more than one way to take a power of a natural number once algebra is at hand.  They are
all equal; everywhere in this library it is the one below.
-/

attribute [instance (high)] instPowNat
