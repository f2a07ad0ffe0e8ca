import Mathlib.Data.List.Sort
import HostSql.Proofs.Engine.Order

/-!
# Classes of a grouping

A grouping sorts its rows by key and cuts what it has sorted where the key changes. Sorting is
stable, so what comes out is told without it:

> `exists_keyClasses`: the sorted rows are the classes of rows with equal keys, one after the other
> in ascending order, and in each class the rows stand as they came.
>
> `Ascending.takeWhile_cons`, `Ascending.dropWhile_cons`: cutting off the rows that equal the first
> one cuts off the first class.
-/

namespace HostSql.Engine

variable {α : Type} {order : α → α → Ordering}

/-- Classes of equal elements in ascending order. -/
structure Ascending (order : α → α → Ordering) (classes : List (List α)) : Prop where
  nonempty : ∀ c ∈ classes, c ≠ []
  alike : ∀ c ∈ classes, ∀ a ∈ c, ∀ b ∈ c, order a b = .eq
  ascending : classes.Pairwise fun c d => ∀ a ∈ c, ∀ b ∈ d, order a b = .lt

/-- The classes of equal elements of a list, in ascending order. The elements of a class stand in it
as they stand in the list. -/
structure KeyClasses (order : α → α → Ordering) (rows : List α) (classes : List (List α)) : Prop
    extends Ascending order classes where
  members : ∀ c ∈ classes, ∀ a ∈ c, c = rows.filter fun b => order a b == .eq
  covers : ∀ a ∈ rows, ∃ c ∈ classes, a ∈ c

namespace Ascending

theorem nil : Ascending order [] := ⟨nofun, nofun, .nil⟩

variable {c : List α} {rest : List (List α)}

theorem tail (h : Ascending order (c :: rest)) : Ascending order rest where
  nonempty d hd := h.nonempty d (List.mem_cons_of_mem c hd)
  alike d hd := h.alike d (List.mem_cons_of_mem c hd)
  ascending := (List.pairwise_cons.mp h.ascending).2

variable {a : α}

theorem eq_of_mem (h : Ascending order (c :: rest)) (ha : a ∈ c) :
    ∀ b ∈ c, (order a b == .eq) = true := by
  intro b hb
  rw [h.alike c List.mem_cons_self a ha b hb]
  rfl

theorem ne_of_mem (h : Ascending order (c :: rest)) (ha : a ∈ c) :
    ∀ b ∈ rest.flatten, (order a b == .eq) = false := by
  intro b hb
  obtain ⟨d, hd, hbd⟩ := List.mem_flatten.mp hb
  rw [(List.pairwise_cons.mp h.ascending).1 d hd a ha b hbd]
  rfl

/-- The elements in front that equal one of the first class are the first class, -/
theorem takeWhile_cons (h : Ascending order (c :: rest)) (ha : a ∈ c) :
    (c ++ rest.flatten).takeWhile (fun b => order a b == .eq) = c := by
  rw [List.takeWhile_append_of_pos (h.eq_of_mem ha)]
  have hstop : rest.flatten.takeWhile (fun b => order a b == .eq) = [] := by
    cases hflat : rest.flatten with
    | nil => rfl
    | cons b bs =>
      refine List.takeWhile_cons_of_neg ?_
      rw [h.ne_of_mem ha b (hflat ▸ List.mem_cons_self)]
      exact Bool.false_ne_true
  rw [hstop, List.append_nil]

/-- and without them the others are left. -/
theorem dropWhile_cons (h : Ascending order (c :: rest)) (ha : a ∈ c) :
    (c ++ rest.flatten).dropWhile (fun b => order a b == .eq) = rest.flatten := by
  have hsplit := List.takeWhile_append_dropWhile (p := fun b => order a b == .eq)
    (l := c ++ rest.flatten)
  rw [h.takeWhile_cons ha] at hsplit
  exact List.append_cancel_left hsplit

variable [Std.TransCmp order]

/-- All elements that equal one of a class are in it. -/
theorem filter_flatten {classes : List (List α)} (h : Ascending order classes) {c : List α}
    (hc : c ∈ classes) {a : α} (ha : a ∈ c) :
    classes.flatten.filter (fun b => order a b == .eq) = c := by
  induction classes with
  | nil => cases hc
  | cons d rest ih =>
    rw [List.flatten_cons, List.filter_append]
    rcases List.mem_cons.mp hc with rfl | hrest
    · have hothers : rest.flatten.filter (fun b => order a b == .eq) = [] := by
        refine List.filter_eq_nil_iff.mpr fun b hb => ?_
        rw [h.ne_of_mem ha b hb]
        exact Bool.false_ne_true
      rw [List.filter_eq_self.mpr (h.eq_of_mem ha), hothers, List.append_nil]
    · have hfirst : d.filter (fun b => order a b == .eq) = [] := by
        refine List.filter_eq_nil_iff.mpr fun b hb => ?_
        have hlt := (List.pairwise_cons.mp h.ascending).1 c hrest b hb a ha
        rw [Std.OrientedCmp.gt_of_lt hlt]
        exact Bool.false_ne_true
      rw [hfirst, ih h.tail hrest, List.nil_append]

/-- One more element of the first class. -/
theorem extend {c : List α} {rest : List (List α)} (h : Ascending order (c :: rest)) {a b : α}
    (hb : b ∈ c) (hab : order a b = .eq) : Ascending order ((a :: c) :: rest) where
  nonempty d hd := by
    rcases List.mem_cons.mp hd with rfl | hd
    · exact List.cons_ne_nil a c
    · exact h.tail.nonempty d hd
  alike d hd x hx y hy := by
    rcases List.mem_cons.mp hd with rfl | hd
    · -- Everything in the class equals `b`.
      have heq : ∀ x ∈ a :: c, order x b = .eq := by
        intro x hx
        rcases List.mem_cons.mp hx with rfl | hx
        · exact hab
        · exact h.alike c List.mem_cons_self x hx b hb
      exact Std.TransCmp.eq_trans (heq x hx) (Std.OrientedCmp.eq_symm (heq y hy))
    · exact h.tail.alike d hd x hx y hy
  ascending := by
    obtain ⟨hfirst, hrest⟩ := List.pairwise_cons.mp h.ascending
    refine List.pairwise_cons.mpr ⟨fun d hd x hx y hy => ?_, hrest⟩
    rcases List.mem_cons.mp hx with rfl | hx
    · exact Std.TransCmp.lt_of_eq_of_lt hab (hfirst d hd b hb y hy)
    · exact hfirst d hd x hx y hy

/-- A class of one element, below all others. -/
theorem cons_singleton {classes : List (List α)} (h : Ascending order classes) {a : α}
    (hlt : ∀ b ∈ classes.flatten, order a b = .lt) : Ascending order ([a] :: classes) where
  nonempty d hd := by
    rcases List.mem_cons.mp hd with rfl | hd
    · exact List.cons_ne_nil a []
    · exact h.nonempty d hd
  alike d hd x hx y hy := by
    rcases List.mem_cons.mp hd with rfl | hd
    · rw [List.mem_singleton.mp hx, List.mem_singleton.mp hy]
      exact Std.ReflCmp.compare_self
    · exact h.alike d hd x hx y hy
  ascending := by
    refine List.pairwise_cons.mpr ⟨fun d hd x hx y hy => ?_, h.ascending⟩
    rw [List.mem_singleton.mp hx]
    exact hlt y (List.mem_flatten.mpr ⟨d, hd, hy⟩)

/-- A sorted list is cut into classes. -/
theorem exists_of_sorted {l : List α} (hsorted : l.Pairwise fun a b => (order a b).isLE = true) :
    ∃ classes, Ascending order classes ∧ classes.flatten = l := by
  induction l with
  | nil => exact ⟨[], nil, rfl⟩
  | cons a l ih =>
    obtain ⟨hfirst, hsorted⟩ := List.pairwise_cons.mp hsorted
    obtain ⟨classes, hclasses, rfl⟩ := ih hsorted
    -- The new element equals those of the first class, or it is below all that follow.
    by_cases heq : ∃ c rest b, classes = c :: rest ∧ b ∈ c ∧ order a b = .eq
    · obtain ⟨c, rest, b, rfl, hb, hab⟩ := heq
      exact ⟨(a :: c) :: rest, hclasses.extend hb hab, rfl⟩
    · refine ⟨[a] :: classes, hclasses.cons_singleton fun x hx => ?_, rfl⟩
      cases classes with
      | nil => cases hx
      | cons c rest =>
        obtain ⟨b, hb⟩ := List.exists_mem_of_ne_nil c (hclasses.nonempty c List.mem_cons_self)
        have hab : order a b = .lt := by
          have hle := hfirst b (List.mem_flatten.mpr ⟨c, List.mem_cons_self, hb⟩)
          have hne : order a b ≠ .eq := fun h => heq ⟨c, rest, b, rfl, hb, h⟩
          cases hcase : order a b with
          | lt => rfl
          | eq => exact absurd hcase hne
          | gt => rw [hcase] at hle; cases hle
        have hbx : (order b x).isLE = true := by
          rcases List.mem_append.mp hx with hx | hx
          · rw [hclasses.alike c List.mem_cons_self b hb x hx]
            rfl
          · obtain ⟨d, hd, hxd⟩ := List.mem_flatten.mp hx
            rw [(List.pairwise_cons.mp hclasses.ascending).1 d hd b hb x hxd]
            rfl
        exact Std.TransCmp.lt_of_lt_of_isLE hab hbx

end Ascending

/-! ## Sorting -/

variable [Std.TransCmp order]

/-- The elements of a list in ascending order. -/
def ascending (order : α → α → Ordering) (rows : List α) : List α :=
  rows.mergeSort fun a b => order a b != .gt

omit [Std.TransCmp order] in
theorem bne_gt_eq_isLE (a b : α) : (order a b != .gt) = (order a b).isLE := by
  cases order a b <;> rfl

theorem isLE_total (a b : α) : ((order a b).isLE || (order b a).isLE) = true := by
  have hswap : order a b = (order b a).swap := Std.OrientedCmp.eq_swap
  rw [hswap]
  cases order b a <;> rfl

theorem ascending_sorted (rows : List α) :
    (ascending order rows).Pairwise fun a b => (order a b).isLE = true := by
  simp only [ascending, bne_gt_eq_isLE]
  exact List.pairwise_mergeSort (fun _ _ _ => Std.TransCmp.isLE_trans) isLE_total rows

/-- Sorting leaves equal elements in their order. -/
theorem ascending_filter (rows : List α) (a : α) :
    (ascending order rows).filter (fun b => order a b == .eq) =
      rows.filter fun b => order a b == .eq := by
  -- The equal elements are sorted as they stand, so they are a sublist of the sorted list.
  have hsorted : (rows.filter fun b => order a b == .eq).Pairwise
      fun x y => (order x y).isLE = true := by
    refine List.pairwise_of_forall_mem_list fun x hx y hy => ?_
    have hax : order a x = .eq := by simpa using (List.mem_filter.mp hx).2
    have hay : order a y = .eq := by simpa using (List.mem_filter.mp hy).2
    rw [Std.TransCmp.eq_trans (Std.OrientedCmp.eq_symm hax) hay]
    rfl
  have hsublist : (rows.filter fun b => order a b == .eq).Sublist (ascending order rows) := by
    simp only [ascending, bne_gt_eq_isLE]
    exact List.sublist_mergeSort (fun _ _ _ => Std.TransCmp.isLE_trans) isLE_total hsorted
      List.filter_sublist
  have hfiltered := hsublist.filter fun b => order a b == .eq
  rw [List.filter_filter] at hfiltered
  simp only [Bool.and_self] at hfiltered
  have hperm := (List.mergeSort_perm rows fun x y => order x y != .gt).filter fun b =>
    order a b == .eq
  exact (hfiltered.eq_of_length hperm.length_eq.symm).symm

/-- The sorted elements are the classes one after the other. -/
theorem exists_keyClasses (rows : List α) :
    ∃ classes, KeyClasses order rows classes ∧ classes.flatten = ascending order rows := by
  have hsorted : (ascending order rows).Pairwise fun a b => (order a b).isLE = true :=
    ascending_sorted rows
  obtain ⟨classes, hclasses, hflat⟩ := Ascending.exists_of_sorted hsorted
  refine ⟨classes, { hclasses with members := fun c hc a ha => ?_, covers := fun a ha => ?_ }, hflat⟩
  · rw [← ascending_filter, ← hflat, hclasses.filter_flatten hc ha]
  · rw [← List.mem_flatten, hflat]
    exact (List.mergeSort_perm rows _).mem_iff.mpr ha

end HostSql.Engine
