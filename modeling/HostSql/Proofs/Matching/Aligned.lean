import HostSql.Proofs.AssocLaws
import Mathlib.Data.List.Forall2
import Mathlib.Data.Option.Basic

/-!
# Aligned association lists

Two association lists are aligned when some of their entries stand for the same things: these come in
the same order, under keys that stand for each other, with related values. What is left of either list
is its rest. Its keys stand for nothing in the other list, so what is done under matched keys leaves the
rest alone.

> `Aligned.get?`, `Aligned.update`, `Aligned.set`, `Aligned.erase`: what is done to both lists under
> matched keys keeps them aligned, with the same rests.
>
> `Aligned.of_part`, `Aligned.part_rest`, `Aligned.diagonal`: where keys stand for themselves, the matched
> entries are a part of each list, and the rests are the other parts.
-/

namespace HostSql

/-! ## Related lists -/

section Lists

variable {α β γ : Type} {R : α → β → Prop} {l : List α} {l' : List β} {p : α → Bool} {q : β → Bool}

/-- The first entries of related lists that meet a condition. -/
theorem forall₂_find? (h : List.Forall₂ R l l') (hpq : ∀ a b, R a b → p a = q b) :
    Option.Rel R (l.find? p) (l'.find? q) := by
  induction h with
  | nil => exact .none
  | cons hR _ ih =>
    rw [List.find?_cons, List.find?_cons, hpq _ _ hR]
    split
    · exact .some hR
    · exact ih

theorem forall₂_filter (h : List.Forall₂ R l l') (hpq : ∀ a b, R a b → p a = q b) :
    List.Forall₂ R (l.filter p) (l'.filter q) :=
  List.rel_filter (fun a b hR => iff_of_eq (congrArg (· = true) (hpq a b hR))) h

theorem forall₂_any (h : List.Forall₂ R l l') (hpq : ∀ a b, R a b → p a = q b) :
    l.any p = l'.any q := by
  induction h with
  | nil => rfl
  | cons hR _ ih => rw [List.any_cons, List.any_cons, hpq _ _ hR, ih]

theorem forall₂_all (h : List.Forall₂ R l l') (hpq : ∀ a b, R a b → p a = q b) :
    l.all p = l'.all q := by
  induction h with
  | nil => rfl
  | cons hR _ ih => rw [List.all_cons, List.all_cons, hpq _ _ hR, ih]

theorem forall₂_findIdx? (h : List.Forall₂ R l l') (hpq : ∀ a b, R a b → p a = q b) :
    l.findIdx? p = l'.findIdx? q := by
  induction h with
  | nil => rfl
  | cons hR _ ih => rw [List.findIdx?_cons, List.findIdx?_cons, hpq _ _ hR, ih]

theorem forall₂_isEmpty (h : List.Forall₂ R l l') : l.isEmpty = l'.isEmpty := by
  cases h <;> rfl

/-- What is read off related entries and does not tell them apart. -/
theorem forall₂_map_eq {f : α → γ} {g : β → γ} (h : List.Forall₂ R l l')
    (hfg : ∀ a b, R a b → f a = g b) : l.map f = l'.map g := by
  induction h with
  | nil => rfl
  | cons hR _ ih => rw [List.map_cons, List.map_cons, hfg _ _ hR, ih]

/-- Folding with a step that does not tell related entries apart. -/
theorem forall₂_foldl_eq {R : α → α → Prop} {l l' : List α} {f : γ → α → γ}
    (h : List.Forall₂ R l l') (hf : ∀ c a b, R a b → f c a = f c b) (c : γ) :
    l.foldl f c = l'.foldl f c := by
  induction h generalizing c with
  | nil => rfl
  | cons hR _ ih => rw [List.foldl_cons, List.foldl_cons, hf _ _ _ hR, ih]

theorem forall₂_getElem? (h : List.Forall₂ R l l') (i : Nat) : Option.Rel R l[i]? l'[i]? := by
  induction h generalizing i with
  | nil => exact .none
  | cons hR _ ih =>
    cases i with
    | zero => exact .some hR
    | succ i => exact ih i

theorem forall₂_zip {γ' : Type} {S : γ → γ' → Prop} {m : List γ} {m' : List γ'}
    (h : List.Forall₂ R l l') (h' : List.Forall₂ S m m') :
    List.Forall₂ (fun a b => R a.1 b.1 ∧ S a.2 b.2) (l.zip m) (l'.zip m') := by
  induction h generalizing m m' with
  | nil => exact .nil
  | cons hR _ ih =>
    cases h' with
    | nil => exact .nil
    | cons hS h' => exact .cons ⟨hR, hS⟩ (ih h')

/-- Related entries stand at the same positions. -/
theorem forall₂_zipIdx (h : List.Forall₂ R l l') (n : Nat) :
    List.Forall₂ (fun a b => R a.1 b.1 ∧ a.2 = b.2) (l.zipIdx n) (l'.zipIdx n) := by
  induction h generalizing n with
  | nil => exact .nil
  | cons hR _ ih => exact .cons ⟨hR, rfl⟩ (ih (n + 1))

/-- What relation tells of all entries on the right. -/
theorem forall₂_right {P : β → Prop} (h : List.Forall₂ R l l') (hP : ∀ a b, R a b → P b) :
    ∀ b ∈ l', P b := by
  induction h with
  | nil => exact fun _ hb => absurd hb List.not_mem_nil
  | cons hR _ ih => exact List.forall_mem_cons.mpr ⟨hP _ _ hR, ih⟩

/-- A list is related to itself by equality. -/
theorem forall₂_eq {α : Type} (l : List α) : List.Forall₂ Eq l l := List.forall₂_refl l

theorem rel_getD {o : Option α} {o' : Option β} {a : α} {b : β} (h : Option.Rel R o o')
    (hab : R a b) : R (o.getD a) (o'.getD b) := by
  cases h with
  | some hR => exact hR
  | none => exact hab

theorem rel_map {γ' : Type} {S : γ → γ' → Prop} {f : α → γ} {g : β → γ'} {o : Option α}
    {o' : Option β} (h : Option.Rel R o o') (hfg : ∀ a b, R a b → S (f a) (g b)) :
    Option.Rel S (o.map f) (o'.map g) := by
  cases h with
  | some hR => exact .some (hfg _ _ hR)
  | none => exact .none

/-- An option is related to itself by equality. -/
theorem rel_eq {α : Type} (o : Option α) : Option.Rel Eq o o := by
  cases o with
  | some a => exact .some rfl
  | none => exact .none

/-- What is found under the same key. -/
theorem rel_bind {f : γ → Option α} {g : γ → Option β} (h : ∀ c, Option.Rel R (f c) (g c))
    (o : Option γ) : Option.Rel R (o.bind f) (o.bind g) := by
  cases o with
  | some c => exact h c
  | none => exact .none

theorem rel_isSome {o : Option α} {o' : Option β} (h : Option.Rel R o o') :
    o.isSome = o'.isSome := by
  cases h <;> rfl

end Lists

/-! ## Alignment -/

variable {κ α β γ γ' : Type}

/-- Keys stand for at most one other key in either direction. -/
structure OneToOne {κ κ' : Type} (same : κ → κ' → Prop) : Prop where
  right : ∀ {k l l'}, same k l → same k l' → l = l'
  left : ∀ {k k' l}, same k l → same k' l → k = k'

/-- Whether a key stands for one of the other list. -/
def Stands {κ κ' : Type} (same : κ → κ' → Prop) (k : κ) : Prop := ∃ l, same k l

/-- Lists of which some entries are matched, in the same order; the rest of each has keys that stand
for nothing in the other. -/
inductive Aligned (same : κ → κ → Prop) (R : α → β → Prop) :
    (rest : Assoc κ α) → (rest' : Assoc κ β) → Assoc κ α → Assoc κ β → Prop
  | nil : Aligned same R [] [] [] []
  | both {rest rest' m m' k l a b} (hkey : same k l) (hvalue : R a b)
      (h : Aligned same R rest rest' m m') : Aligned same R rest rest' ((k, a) :: m) ((l, b) :: m')
  | left {rest rest' m m' k a} (hkey : ∀ l, ¬same k l) (h : Aligned same R rest rest' m m') :
      Aligned same R ((k, a) :: rest) rest' ((k, a) :: m) m'
  | right {rest rest' m m' l b} (hkey : ∀ k, ¬same k l) (h : Aligned same R rest rest' m m') :
      Aligned same R rest ((l, b) :: rest') m ((l, b) :: m')

namespace Aligned

variable {same : κ → κ → Prop} {R S : α → β → Prop} {rest m : Assoc κ α} {rest' m' : Assoc κ β}

/-- What holds of matched values loosely. -/
theorem mono (h : Aligned same R rest rest' m m') (hRS : ∀ a b, R a b → S a b) :
    Aligned same S rest rest' m m' := by
  induction h with
  | nil => exact .nil
  | both hkey hvalue _ ih => exact .both hkey (hRS _ _ hvalue) ih
  | left hkey _ ih => exact .left hkey ih
  | right hkey _ ih => exact .right hkey ih

/-- Values are changed on both sides, but not in the rests. -/
theorem map {f : κ → α → α} {g : κ → β → β} (h : Aligned same R rest rest' m m')
    (hmatched : ∀ k l a b, same k l → R a b → R (f k a) (g l b))
    (hrest : ∀ p ∈ rest, f p.1 p.2 = p.2) (hrest' : ∀ p ∈ rest', g p.1 p.2 = p.2) :
    Aligned same R rest rest' (m.map fun p => (p.1, f p.1 p.2)) (m'.map fun p => (p.1, g p.1 p.2)) := by
  induction h with
  | nil => exact .nil
  | both hkey hvalue _ ih => exact .both hkey (hmatched _ _ _ _ hkey hvalue) (ih hrest hrest')
  | left hkey _ ih =>
    obtain ⟨hhead, htail⟩ := List.forall_mem_cons.mp hrest
    rw [List.map_cons, hhead]
    exact .left hkey (ih htail hrest')
  | right hkey _ ih =>
    obtain ⟨hhead, htail⟩ := List.forall_mem_cons.mp hrest'
    rw [List.map_cons, hhead]
    exact .right hkey (ih hrest htail)

/-- Entries are taken away on both sides, but not from the rests. -/
theorem filter {p : κ × α → Bool} {q : κ × β → Bool} (h : Aligned same R rest rest' m m')
    (hmatched : ∀ k l a b, same k l → R a b → p (k, a) = q (l, b))
    (hrest : ∀ e ∈ rest, p e = true) (hrest' : ∀ e ∈ rest', q e = true) :
    Aligned same R rest rest' (m.filter p) (m'.filter q) := by
  induction h with
  | nil => exact .nil
  | both hkey hvalue _ ih =>
    rw [List.filter_cons, List.filter_cons, hmatched _ _ _ _ hkey hvalue]
    split
    · exact .both hkey hvalue (ih hrest hrest')
    · exact ih hrest hrest'
  | left hkey _ ih =>
    obtain ⟨hhead, htail⟩ := List.forall_mem_cons.mp hrest
    rw [List.filter_cons_of_pos hhead]
    exact .left hkey (ih htail hrest')
  | right hkey _ ih =>
    obtain ⟨hhead, htail⟩ := List.forall_mem_cons.mp hrest'
    rw [List.filter_cons_of_pos hhead]
    exact .right hkey (ih hrest htail)

/-- What is chosen from matched entries alone is related. -/
theorem filterMap {T : γ → γ' → Prop} {f : κ × α → Option γ} {g : κ × β → Option γ'}
    (h : Aligned same R rest rest' m m')
    (hmatched : ∀ k l a b, same k l → R a b → Option.Rel T (f (k, a)) (g (l, b)))
    (hrest : ∀ e ∈ rest, f e = none) (hrest' : ∀ e ∈ rest', g e = none) :
    List.Forall₂ T (m.filterMap f) (m'.filterMap g) := by
  induction h with
  | nil => exact .nil
  | both hkey hvalue _ ih =>
    have hhead := hmatched _ _ _ _ hkey hvalue
    rw [List.filterMap_cons, List.filterMap_cons]
    revert hhead
    generalize f _ = x
    generalize g _ = y
    intro hhead
    cases hhead with
    | some hT => exact .cons hT (ih hrest hrest')
    | none => exact ih hrest hrest'
  | left hkey _ ih =>
    obtain ⟨hhead, htail⟩ := List.forall_mem_cons.mp hrest
    rw [List.filterMap_cons, hhead]
    exact ih htail hrest'
  | right hkey _ ih =>
    obtain ⟨hhead, htail⟩ := List.forall_mem_cons.mp hrest'
    rw [List.filterMap_cons, hhead]
    exact ih hrest htail

/-- Entries that are chosen, when none of the rests is. -/
theorem select {p : κ × α → Bool} {q : κ × β → Bool} (h : Aligned same R rest rest' m m')
    (hmatched : ∀ k l a b, same k l → R a b → p (k, a) = q (l, b))
    (hrest : ∀ e ∈ rest, p e = false) (hrest' : ∀ e ∈ rest', q e = false) :
    List.Forall₂ (fun e e' => same e.1 e'.1 ∧ R e.2 e'.2) (m.filter p) (m'.filter q) := by
  induction h with
  | nil => exact .nil
  | both hkey hvalue _ ih =>
    rw [List.filter_cons, List.filter_cons, hmatched _ _ _ _ hkey hvalue]
    split
    · exact .cons ⟨hkey, hvalue⟩ (ih hrest hrest')
    · exact ih hrest hrest'
  | left hkey _ ih =>
    obtain ⟨hhead, htail⟩ := List.forall_mem_cons.mp hrest
    rw [List.filter_cons_of_neg (by simp [hhead])]
    exact ih htail hrest'
  | right hkey _ ih =>
    obtain ⟨hhead, htail⟩ := List.forall_mem_cons.mp hrest'
    rw [List.filter_cons_of_neg (by simp [hhead])]
    exact ih hrest htail

/-- The first entries that are looked for, when none of the rests is. -/
theorem find? {p : κ × α → Bool} {q : κ × β → Bool} (h : Aligned same R rest rest' m m')
    (hmatched : ∀ k l a b, same k l → R a b → p (k, a) = q (l, b))
    (hrest : ∀ e ∈ rest, p e = false) (hrest' : ∀ e ∈ rest', q e = false) :
    Option.Rel (fun e e' => same e.1 e'.1 ∧ R e.2 e'.2) (m.find? p) (m'.find? q) := by
  induction h with
  | nil => exact .none
  | both hkey hvalue _ ih =>
    rw [List.find?_cons, List.find?_cons, hmatched _ _ _ _ hkey hvalue]
    split
    · exact .some ⟨hkey, hvalue⟩
    · exact ih hrest hrest'
  | left hkey _ ih =>
    obtain ⟨hhead, htail⟩ := List.forall_mem_cons.mp hrest
    rw [List.find?_cons, hhead]
    exact ih htail hrest'
  | right hkey _ ih =>
    obtain ⟨hhead, htail⟩ := List.forall_mem_cons.mp hrest'
    rw [List.find?_cons, hhead]
    exact ih hrest htail

section Keys

variable [BEq κ] [LawfulBEq κ] {k l : κ}

/-- Matched keys have related values, or none. -/
theorem get? (h : Aligned same R rest rest' m m') (hone : OneToOne same) (hkey : same k l) :
    Option.Rel R (m.get? k) (m'.get? l) := by
  induction h with
  | nil => exact .none
  | @both _ _ _ _ j j' _ _ hkey' hvalue _ ih =>
    by_cases hj : j = k
    · have hj' : j' = l := hone.right (hj ▸ hkey') hkey
      rw [hj, hj', Assoc.get?_cons_self, Assoc.get?_cons_self]
      exact .some hvalue
    · have hj' : j' ≠ l := fun heq => hj (hone.left hkey' (heq ▸ hkey))
      rw [Assoc.get?_cons_ne hj, Assoc.get?_cons_ne hj']
      exact ih
  | @left _ _ _ _ j _ hkey' _ ih =>
    have hj : j ≠ k := fun heq => hkey' l (heq ▸ hkey)
    rw [Assoc.get?_cons_ne hj]
    exact ih
  | @right _ _ _ _ j _ hkey' _ ih =>
    have hj : j ≠ l := fun heq => hkey' k (heq ▸ hkey)
    rw [Assoc.get?_cons_ne hj]
    exact ih

/-- Matched keys are told apart from others alike. -/
theorem beq_iff {j j' : κ} (hone : OneToOne same) (hkey : same k l) (hkey' : same j j') :
    (j == k) = (j' == l) := by
  rw [Bool.eq_iff_iff, beq_iff_eq, beq_iff_eq]
  constructor
  · intro heq
    exact hone.right (heq ▸ hkey') hkey
  · intro heq
    exact hone.left hkey' (heq ▸ hkey)

/-- A key that stands for nothing is not a matched one. -/
theorem beq_rest {j : κ} (hkey : same k l) (hrest : ∀ l, ¬same j l) : (j == k) = false :=
  beq_eq_false_iff_ne.mpr fun heq => hrest l (heq ▸ hkey)

theorem beq_rest' {j : κ} (hkey : same k l) (hrest : ∀ k, ¬same k j) : (j == l) = false :=
  beq_eq_false_iff_ne.mpr fun heq => hrest k (heq ▸ hkey)

omit [BEq κ] [LawfulBEq κ] in
/-- The keys of the rests stand for nothing. -/
theorem rest_stands (h : Aligned same R rest rest' m m') :
    (∀ e ∈ rest, ∀ l, ¬same e.1 l) ∧ ∀ e ∈ rest', ∀ k, ¬same k e.1 := by
  induction h with
  | nil => exact ⟨nofun, nofun⟩
  | both _ _ _ ih => exact ih
  | left hkey _ ih => exact ⟨List.forall_mem_cons.mpr ⟨hkey, ih.1⟩, ih.2⟩
  | right hkey _ ih => exact ⟨ih.1, List.forall_mem_cons.mpr ⟨hkey, ih.2⟩⟩

theorem update (h : Aligned same R rest rest' m m') (hone : OneToOne same) (hkey : same k l)
    {f : α → α} {g : β → β} (hvalue : ∀ a b, R a b → R (f a) (g b)) :
    Aligned same R rest rest' (Assoc.update m k f) (Assoc.update m' l g) := by
  rw [Assoc.update_eq_map, Assoc.update_eq_map]
  refine h.map (f := fun j a => if j == k then f a else a) (g := fun j b => if j == l then g b else b)
    (fun j j' a b hj hR => ?_) (fun e he => ?_) fun e he => ?_
  · rw [beq_iff hone hkey hj]
    split
    · exact hvalue a b hR
    · exact hR
  · rw [beq_rest hkey (h.rest_stands.1 e he)]
    rfl
  · rw [beq_rest' hkey (h.rest_stands.2 e he)]
    rfl

theorem erase (h : Aligned same R rest rest' m m') (hone : OneToOne same) (hkey : same k l) :
    Aligned same R rest rest' (Assoc.erase m k) (Assoc.erase m' l) := by
  refine h.filter (fun j j' a b hj _ => ?_) (fun e he => ?_) fun e he => ?_
  · rw [beq_iff hone hkey hj]
  · rw [beq_rest hkey (h.rest_stands.1 e he)]
    rfl
  · rw [beq_rest' hkey (h.rest_stands.2 e he)]
    rfl

/-- Matched keys get related values: where they stand, or at the end of both lists. -/
theorem set (h : Aligned same R rest rest' m m') (hone : OneToOne same) (hkey : same k l) {a : α}
    {b : β} (hvalue : R a b) : Aligned same R rest rest' (Assoc.set m k a) (Assoc.set m' l b) := by
  induction h with
  | nil => exact .both hkey hvalue .nil
  | both hkey' hvalue' h ih =>
    unfold Assoc.set
    rw [beq_iff hone hkey hkey']
    split
    · exact .both hkey hvalue h
    · exact .both hkey' hvalue' ih
  | left hkey' _ ih =>
    rw [Assoc.set, beq_rest hkey hkey']
    exact .left hkey' ih
  | right hkey' _ ih =>
    rw [Assoc.set, beq_rest' hkey hkey']
    exact .right hkey' ih

end Keys

/-! ## Parts of a list -/

open Assoc (part)

/-- Lists that have a part in common, whose keys stand for themselves, while those of the other parts
stand for nothing. -/
theorem of_part {P : κ → Prop} {R : α → α → Prop} {m m' : Assoc κ α} (hpart : part P m = part P m')
    (hmatched : ∀ e ∈ m, P e.1 → same e.1 e.1 ∧ R e.2 e.2)
    (hrest : ∀ e ∈ m, ¬P e.1 → ∀ l, ¬same e.1 l) (hrest' : ∀ e ∈ m', ¬P e.1 → ∀ k, ¬same k e.1) :
    Aligned same R (part (¬P ·) m) (part (¬P ·) m') m m' := by
  induction m generalizing m' with
  | nil =>
    induction m' with
    | nil => exact .nil
    | cons e m' ih =>
      obtain ⟨hhead, htail⟩ := List.forall_mem_cons.mp hrest'
      by_cases he : P e.1
      · rw [Assoc.part_cons_pos he] at hpart
        exact nomatch hpart
      · rw [Assoc.part_cons_neg he] at hpart
        rw [Assoc.part_cons_pos (P := (¬P ·)) he]
        exact .right (hhead he) (ih hpart htail)
  | cons e m ih =>
    obtain ⟨hmatchedHead, hmatchedTail⟩ := List.forall_mem_cons.mp hmatched
    obtain ⟨hrestHead, hrestTail⟩ := List.forall_mem_cons.mp hrest
    by_cases he : P e.1
    · rw [Assoc.part_cons_pos he] at hpart
      rw [Assoc.part_cons_neg (P := (¬P ·)) (not_not_intro he)]
      -- the entry is the first one of the other list that is in the part
      induction m' with
      | nil => exact nomatch hpart
      | cons e' m' ih' =>
        obtain ⟨hhead, htail⟩ := List.forall_mem_cons.mp hrest'
        by_cases he' : P e'.1
        · rw [Assoc.part_cons_pos he'] at hpart
          rw [Assoc.part_cons_neg (P := (¬P ·)) (not_not_intro he')]
          obtain ⟨hheads, htails⟩ := List.cons.inj hpart
          obtain ⟨hsame, hvalue⟩ := hmatchedHead he
          cases hheads
          exact .both hsame hvalue (ih htails hmatchedTail hrestTail htail)
        · rw [Assoc.part_cons_neg he'] at hpart
          rw [Assoc.part_cons_pos (P := (¬P ·)) he']
          exact .right (hhead he') (ih' hpart htail)
    · rw [Assoc.part_cons_neg he] at hpart
      rw [Assoc.part_cons_pos (P := (¬P ·)) he]
      exact .left (hrestHead he) (ih hpart hmatchedTail hrestTail hrest')

/-- The entries whose keys stand for nothing are the rest. -/
theorem part_rest {P : κ → Prop} (h : Aligned same R rest rest' m m')
    (hP : ∀ k, P k ↔ ∀ l, ¬same k l) : part P m = rest := by
  induction h with
  | nil => rfl
  | both hkey _ _ ih =>
    rw [Assoc.part_cons_neg fun hk => (hP _).mp hk _ hkey]
    exact ih
  | left hkey _ ih => rw [Assoc.part_cons_pos ((hP _).mpr hkey), ih]
  | right _ _ ih => exact ih

/-- In a list that is aligned with itself, entries are matched with themselves. -/
theorem diagonal {P : κ → Prop} {R : α → α → Prop} {rest rest' m : Assoc κ α}
    (h : Aligned same R rest rest' m m) (hP : ∀ k l, same k l → P k ∧ P l)
    (hrest : ∀ e ∈ rest, ¬P e.1) (hrest' : ∀ e ∈ rest', ¬P e.1) :
    ∀ e ∈ m, P e.1 → R e.2 e.2 := by
  classical
  have hchosen := h.select (p := fun e => decide (P e.1)) (q := fun e => decide (P e.1))
    (fun k l _ _ hkl _ => by rw [decide_eq_true (hP k l hkl).1, decide_eq_true (hP k l hkl).2])
    (fun e he => decide_eq_false (hrest e he)) fun e he => decide_eq_false (hrest' e he)
  intro e he hPe
  exact (List.forall₂_same.mp hchosen e (List.mem_filter.mpr ⟨he, decide_eq_true hPe⟩)).2

end Aligned

end HostSql
