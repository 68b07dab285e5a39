/-!
# Powers

Natural numbers have one power function here, `Nat.pow`, whatever other ones are in scope.
-/

attribute [instance (2000)] instPowNat
