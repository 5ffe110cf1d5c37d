import Mathlib.Logic.Basic

/-!
# Lock files

A lock file is created by one holder at a time and removed by its name, so a removal may
meet the file of another holder. While every removal from outside meets no file of a holder
that is inside, everyone inside created the file that is there now, and at most one holder
is inside.
-/

namespace Kvy.General.LockFile

universe u
variable {Holder : Type u}

/-- Everyone inside created the file that is there now. -/
def Guarded (file : Option Holder) (inside : Holder → Prop) : Prop :=
  ∀ holder, inside holder → file = some holder

/-- At most one holder is inside. -/
def Exclusive (inside : Holder → Prop) : Prop :=
  ∀ first second, inside first → inside second → first = second

/-- What a step may do to the lock file and to who is inside. -/
inductive Step (file : Option Holder) (inside : Holder → Prop) :
    Option Holder → (Holder → Prop) → Prop where
  /-- A holder creates the file where there is none. -/
  | enter {inside' : Holder → Prop} (holder : Holder) (vacant : file = none)
    (only : ∀ other, inside' other → other = holder ∨ inside other) :
    Step file inside (some holder) inside'
  /-- The file stays, and nobody enters. -/
  | stay {inside' : Holder → Prop} (only : ∀ other, inside' other → inside other) :
    Step file inside file inside'
  /-- A holder that is inside leaves and removes the file that is there. -/
  | leave {inside' : Holder → Prop} (holder : Holder) (was : inside holder)
    (only : ∀ other, inside' other → other ≠ holder ∧ inside other) : Step file inside none inside'
  /-- The file is removed from outside while its holder is not inside. -/
  | reclaim {inside' : Holder → Prop} (dead : ∀ holder, file = some holder → ¬ inside holder)
    (only : ∀ other, inside' other → inside other) : Step file inside none inside'

theorem Guarded.exclusive {file : Option Holder} {inside : Holder → Prop}
    (guarded : Guarded file inside) : Exclusive inside := by
  intro first second one two
  exact Option.some.inj ((guarded first one).symm.trans (guarded second two))

/-- Where there is no file, nobody is inside. -/
theorem Guarded.vacant {inside : Holder → Prop} (guarded : Guarded none inside) (holder : Holder) :
    ¬ inside holder := by
  intro was
  exact absurd (guarded holder was) (by simp)

/-- Every step keeps the guard. -/
theorem Guarded.step {file file' : Option Holder} {inside inside' : Holder → Prop}
    (guarded : Guarded file inside) (taken : Step file inside file' inside') :
    Guarded file' inside' := by
  intro other isInside
  cases taken with
  | enter holder vacant only =>
    subst vacant
    obtain rfl | was := only other isInside
    · rfl
    · exact absurd was (guarded.vacant other)
  | stay only => exact guarded other (only other isInside)
  | leave holder was only =>
    obtain ⟨differs, stays⟩ := only other isInside
    exact absurd (guarded.exclusive other holder stays was) differs
  | reclaim dead only =>
    have was := only other isInside
    exact absurd was (dead other (guarded other was))

end Kvy.General.LockFile
