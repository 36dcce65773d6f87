import LogCollector.Lib.Machine

/-!
# Handing a resource over from one generation to the next

A resource with several users is replaced by a new generation while some of
them may still be using the old one. `Handover` keeps the users and those of
them that are still BEHIND, on the old generation. A hand-over begins when a
user brings the new generation in, which puts every other user behind; each
user behind leaves once; the old generation may be released when nobody is
behind.

An implementation that counts instead of keeping sets is right as long as its
counters are the cardinalities (`Counts`), and the three operations change the
cardinalities by one exactly when the user that moves is where the operation
expects it.
-/

namespace Lib

/-- The users of a resource, and those still on its previous generation. -/
structure Handover (ι : Type*) where
  users : Finset ι
  behind : Finset ι
  sub : behind ⊆ users

namespace Handover

variable {ι : Type*}

/-- Nobody uses the resource. -/
def empty : Handover ι := ⟨∅, ∅, Finset.Subset.refl ∅⟩

/-- `ahead` counts the users on the current generation, `back` those behind. -/
def Counts (h : Handover ι) (ahead back : Int) : Prop :=
  back = h.behind.card ∧ ahead + back = h.users.card

/-- A zero count means nobody is behind: the old generation can be released. -/
theorem Counts.behind_eq_empty {h : Handover ι} {ahead : Int} (hc : h.Counts ahead 0) :
    h.behind = ∅ :=
  Finset.card_eq_zero.mp (by exact_mod_cast hc.1.symm)

variable [DecidableEq ι]

/-- A new user starts on the current generation. -/
def join (h : Handover ι) (t : ι) : Handover ι :=
  ⟨insert t h.users, h.behind, h.sub.trans (Finset.subset_insert t h.users)⟩

/-- User `t` brings in a new generation: the others fall behind. -/
def begin (h : Handover ι) (t : ι) : Handover ι :=
  ⟨h.users, h.users.erase t, Finset.erase_subset t h.users⟩

/-- User `t` leaves the previous generation. -/
def leave (h : Handover ι) (t : ι) : Handover ι :=
  ⟨h.users, h.behind.erase t, (Finset.erase_subset t h.behind).trans h.sub⟩

theorem Counts.join {h : Handover ι} {ahead back : Int} (hc : h.Counts ahead back) {t : ι}
    (ht : t ∉ h.users) : (h.join t).Counts (ahead + 1) back := by
  obtain ⟨hb, ha⟩ := hc
  refine ⟨hb, ?_⟩
  have := Finset.card_insert_of_notMem ht
  simp only [Handover.join, this]
  push_cast
  omega

/-- A hand-over by a user leaves one user ahead. -/
theorem Counts.begin {h : Handover ι} {ahead back : Int} (hc : h.Counts ahead back)
    (hidle : h.behind = ∅) {t : ι} (ht : t ∈ h.users) : (h.begin t).Counts 1 (ahead - 1) := by
  obtain ⟨hb, ha⟩ := hc
  have hcard := Finset.card_erase_add_one ht
  simp only [hidle, Finset.card_empty, Nat.cast_zero] at hb
  refine ⟨?_, ?_⟩ <;> simp only [Handover.begin] <;> omega

/-- A user that is behind moves one count over when it leaves. -/
theorem Counts.leave {h : Handover ι} {ahead back : Int} (hc : h.Counts ahead back) {t : ι}
    (ht : t ∈ h.behind) : (h.leave t).Counts (ahead + 1) (back - 1) := by
  obtain ⟨hb, ha⟩ := hc
  have hcard := Finset.card_erase_add_one ht
  refine ⟨?_, ?_⟩ <;> simp only [Handover.leave] <;> omega

end Handover

end Lib
