/-!
# Arrangements

Commands pending in a table have no order of their own, so whatever runs through all of them may
take them in any order.  An arrangement is a choice of one.

* `Arrangement` — the positions to take next, one after the other;
* `Arrangement.apply` — the list in that order; positions that do not exist are passed over, and
  what is never chosen comes last, in the order it had.

`apply_perm` says that nothing is lost or added, and `exists_apply_eq` that every order has an
arrangement.
-/

namespace CommandBridge

/-- The positions to take next, each counted among the elements still left. -/
abbrev Arrangement := List Nat

namespace Arrangement

/-- The elements in the order that the arrangement chooses. -/
def apply {α : Type} : Arrangement → List α → List α
  | [], l => l
  | k :: ks, l =>
    match l[k]? with
    | some a => a :: apply ks (l.eraseIdx k)
    | none => apply ks l

theorem getElem_cons_eraseIdx_perm {α : Type} {l : List α} {k : Nat} (h : k < l.length) :
    (l[k] :: l.eraseIdx k).Perm l := by
  induction l generalizing k with
  | nil => simp at h
  | cons a l ih =>
    cases k with
    | zero => exact .refl _
    | succ k =>
      have h' : k < l.length := by simpa using h
      exact (List.Perm.swap ..).trans ((ih h').cons a)

theorem apply_perm {α : Type} (ks : Arrangement) (l : List α) : (apply ks l).Perm l := by
  induction ks generalizing l with
  | nil => exact .refl l
  | cons k ks ih =>
    unfold apply
    split
    · next a h =>
      obtain ⟨hk, rfl⟩ := List.getElem?_eq_some_iff.mp h
      exact ((ih (l.eraseIdx k)).cons _).trans (getElem_cons_eraseIdx_perm hk)
    · exact ih l

/-- What is told apart in a list is told apart in any order of a part of it. -/
theorem nodup_map_apply {α β : Type} (ks : Arrangement) (f : α → β) {l m : List α}
    (hl : l.Sublist m) (hm : (m.map f).Nodup) : ((apply ks l).map f).Nodup :=
  ((apply_perm ks l).map f).nodup_iff.mpr (hm.sublist (hl.map f))

theorem exists_apply_eq {α : Type} {l m : List α} (h : m.Perm l) :
    ∃ ks, apply ks l = m := by
  induction m generalizing l with
  | nil => exact ⟨[], h.nil_eq.symm⟩
  | cons a m ih =>
    obtain ⟨k, hk, rfl⟩ := List.getElem_of_mem (h.subset (List.mem_cons_self ..))
    have rest : m.Perm (l.eraseIdx k) :=
      (h.trans (getElem_cons_eraseIdx_perm hk).symm).cons_inv
    obtain ⟨ks, hks⟩ := ih rest
    refine ⟨k :: ks, ?_⟩
    simp [apply, List.getElem?_eq_getElem hk, hks]

end Arrangement

end CommandBridge
