import Mathlib.Algebra.Group.Int
import Mathlib.Algebra.Group.Nat.Basic
import Mathlib.Tactic.SplitIfs

/- What every part of the model shares: C code whose result can be undefined returns an
   `Except`, and its statements are chained with `>>=`. These two equations let `simp`
   run such a chain once the outcome of each step is known. -/

namespace Dmpv

@[simp] theorem ok_bind {ε α β : Type} (a : α) (f : α → Except ε β) :
    (Except.ok a >>= f) = f a := rfl

@[simp] theorem error_bind {ε α β : Type} (e : ε) (f : α → Except ε β) :
    (Except.error e >>= f) = Except.error e := rfl

end Dmpv
