import HostSql.Assoc

/-!
# Laws of association lists

What reading a key gives after another key, or the same one, has been set, erased or changed, and
how what is read is related to entries when keys are distinct, as they stay when keys are set.
-/

namespace HostSql.Assoc

variable {κ α : Type} [BEq κ] [LawfulBEq κ]

theorem get?_cons_self (k : κ) (a : α) (m : Assoc κ α) : get? ((k, a) :: m) k = some a := by
  unfold get?
  rw [List.lookup_cons_self]

theorem get?_cons_ne {j k : κ} (h : j ≠ k) (a : α) (m : Assoc κ α) :
    get? ((j, a) :: m) k = get? m k := by
  unfold get?
  rw [List.lookup_cons, beq_eq_false_iff_ne.mpr h.symm]

/-- A key that was set has its new value. -/
@[simp]
theorem get?_set_self (m : Assoc κ α) (k : κ) (a : α) : get? (set m k a) k = some a := by
  induction m with
  | nil => exact get?_cons_self k a []
  | cons p m ih =>
    obtain ⟨j, b⟩ := p
    unfold set
    by_cases h : j = k
    · rw [if_pos (beq_iff_eq.mpr h)]
      exact get?_cons_self k a m
    · rw [if_neg (by simpa using h), get?_cons_ne h]
      exact ih

/-- Setting a key leaves every other key as it was. -/
theorem get?_set_ne (m : Assoc κ α) {k l : κ} (h : k ≠ l) (a : α) :
    get? (set m k a) l = get? m l := by
  induction m with
  | nil => exact get?_cons_ne h a []
  | cons p m ih =>
    obtain ⟨j, b⟩ := p
    unfold set
    by_cases hjk : j = k
    · rw [if_pos (beq_iff_eq.mpr hjk), get?_cons_ne h, get?_cons_ne (hjk ▸ h)]
    · rw [if_neg (by simpa using hjk)]
      by_cases hjl : j = l
      · rw [hjl, get?_cons_self, get?_cons_self]
      · rw [get?_cons_ne hjl, get?_cons_ne hjl, ih]

/-- Giving a key the value that it has changes nothing. -/
theorem set_of_get? {m : Assoc κ α} {k : κ} {a : α} (h : get? m k = some a) : set m k a = m := by
  induction m with
  | nil => exact nomatch h
  | cons p m ih =>
    obtain ⟨j, b⟩ := p
    unfold set
    by_cases hjk : j = k
    · subst hjk
      rw [get?_cons_self] at h
      cases h
      rw [if_pos (beq_self_eq_true j)]
    · rw [get?_cons_ne hjk] at h
      rw [if_neg (by simpa using hjk), ih h]

/-- A key that was erased has no value. -/
theorem get?_erase_self (m : Assoc κ α) (k : κ) : get? (erase m k) k = none := by
  unfold get? erase
  rw [List.lookup_eq_none_iff]
  intro p hp
  have hkey : p.1 ≠ k := by simpa using (List.mem_filter.mp hp).2
  simpa using hkey.symm

/-- Erasing a key leaves every other key as it was. -/
theorem get?_erase_ne (m : Assoc κ α) {k l : κ} (h : k ≠ l) :
    get? (erase m k) l = get? m l := by
  induction m with
  | nil => rfl
  | cons p m ih =>
    obtain ⟨j, b⟩ := p
    unfold erase at ih ⊢
    by_cases hjk : j = k
    · rw [List.filter_cons_of_neg (by simpa using hjk), get?_cons_ne (hjk ▸ h), ih]
    · rw [List.filter_cons_of_pos (by simpa using hjk)]
      by_cases hjl : j = l
      · rw [hjl, get?_cons_self, get?_cons_self]
      · rw [get?_cons_ne hjl, get?_cons_ne hjl, ih]

omit [LawfulBEq κ] in
/-- A change of one value is a change of all, which leaves the others as they are. -/
theorem update_eq_map (m : Assoc κ α) (k : κ) (f : α → α) :
    update m k f = m.map fun p => (p.1, if p.1 == k then f p.2 else p.2) := by
  refine List.map_congr_left fun p _ => ?_
  split <;> rfl

/-- A key that was changed has its value changed. -/
theorem get?_update_self (m : Assoc κ α) (k : κ) (f : α → α) :
    get? (update m k f) k = (get? m k).map f := by
  induction m with
  | nil => rfl
  | cons p m ih =>
    obtain ⟨j, b⟩ := p
    unfold update at ih ⊢
    rw [List.map_cons]
    by_cases h : j = k
    · rw [if_pos (beq_iff_eq.mpr h), h, get?_cons_self, get?_cons_self]
      rfl
    · rw [if_neg (by simpa using h), get?_cons_ne h, get?_cons_ne h]
      exact ih

/-- Changing a key leaves every other key as it was. -/
theorem get?_update_ne (m : Assoc κ α) {k l : κ} (h : k ≠ l) (f : α → α) :
    get? (update m k f) l = get? m l := by
  induction m with
  | nil => rfl
  | cons p m ih =>
    obtain ⟨j, b⟩ := p
    unfold update at ih ⊢
    rw [List.map_cons]
    by_cases hjk : j = k
    · rw [if_pos (beq_iff_eq.mpr hjk), get?_cons_ne (hjk ▸ h), get?_cons_ne (hjk ▸ h)]
      exact ih
    · rw [if_neg (by simpa using hjk)]
      by_cases hjl : j = l
      · rw [hjl, get?_cons_self, get?_cons_self]
      · rw [get?_cons_ne hjl, get?_cons_ne hjl, ih]

/-- When every value is changed, so is what is read. -/
theorem get?_map {β : Type} (m : Assoc κ α) (f : κ → α → β) (k : κ) :
    get? (m.map fun p => (p.1, f p.1 p.2)) k = (get? m k).map (f k) := by
  induction m with
  | nil => rfl
  | cons p m ih =>
    obtain ⟨j, b⟩ := p
    rw [List.map_cons]
    by_cases h : j = k
    · rw [h, get?_cons_self, get?_cons_self]
      rfl
    · rw [get?_cons_ne h, get?_cons_ne h]
      exact ih

/-! ## Entries -/

/-- A value that is read is that of an entry. -/
theorem mem_of_get? {m : Assoc κ α} {k : κ} {a : α} (h : get? m k = some a) : (k, a) ∈ m := by
  induction m with
  | nil => exact nomatch h
  | cons p m ih =>
    obtain ⟨j, b⟩ := p
    by_cases hjk : j = k
    · rw [hjk, get?_cons_self] at h
      cases h
      rw [hjk]
      exact List.mem_cons_self
    · rw [get?_cons_ne hjk] at h
      exact List.mem_cons_of_mem _ (ih h)

/-- When keys are distinct, the value of an entry is read under its key. -/
theorem get?_of_mem {m : Assoc κ α} (hkeys : (m.map (·.1)).Nodup) {k : κ} {a : α}
    (h : (k, a) ∈ m) : get? m k = some a := by
  induction m with
  | nil => exact nomatch h
  | cons p m ih =>
    obtain ⟨j, b⟩ := p
    rw [List.map_cons, List.nodup_cons] at hkeys
    rcases List.mem_cons.mp h with heq | hmem
    · cases heq
      exact get?_cons_self k a m
    · have hne : j ≠ k := by
        rintro rfl
        exact hkeys.1 (List.mem_map.mpr ⟨_, hmem, rfl⟩)
      rw [get?_cons_ne hne]
      exact ih hkeys.2 hmem

/-- The keys are those under which something is read. -/
theorem mem_keys_iff {m : Assoc κ α} {k : κ} : k ∈ m.map (·.1) ↔ (get? m k).isSome = true := by
  induction m with
  | nil => exact ⟨nofun, nofun⟩
  | cons p m ih =>
    obtain ⟨j, b⟩ := p
    rw [List.map_cons, List.mem_cons]
    by_cases hjk : j = k
    · rw [hjk, get?_cons_self]
      exact ⟨fun _ => rfl, fun _ => .inl rfl⟩
    · rw [get?_cons_ne hjk, ← ih]
      exact or_iff_right (Ne.symm hjk)

omit [LawfulBEq κ] in
/-- Changing a value changes no key. -/
theorem keys_update (m : Assoc κ α) (k : κ) (f : α → α) :
    (update m k f).map (·.1) = m.map (·.1) := by
  rw [update_eq_map, List.map_map]
  rfl

/-- The keys after one has been set. -/
theorem mem_keys_set {m : Assoc κ α} {k j : κ} {a : α} (h : j ∈ (set m k a).map (·.1)) :
    j = k ∨ j ∈ m.map (·.1) := by
  induction m with
  | nil => exact .inl (List.mem_singleton.mp h)
  | cons p m ih =>
    obtain ⟨i, b⟩ := p
    unfold set at h
    by_cases hik : i = k
    · rw [if_pos (beq_iff_eq.mpr hik), List.map_cons] at h
      rcases List.mem_cons.mp h with heq | hmem
      · exact .inl heq
      · exact .inr (List.mem_cons_of_mem _ hmem)
    · rw [if_neg (by simpa using hik), List.map_cons] at h
      rcases List.mem_cons.mp h with heq | hmem
      · exact .inr (heq ▸ List.mem_cons_self)
      · rcases ih hmem with heq | hmem
        · exact .inl heq
        · exact .inr (List.mem_cons_of_mem _ hmem)

/-- Setting a key keeps keys distinct. -/
theorem nodup_set {m : Assoc κ α} (h : (m.map (·.1)).Nodup) (k : κ) (a : α) :
    ((set m k a).map (·.1)).Nodup := by
  induction m with
  | nil => exact List.nodup_cons.mpr ⟨List.not_mem_nil, List.nodup_nil⟩
  | cons p m ih =>
    obtain ⟨j, b⟩ := p
    rw [List.map_cons, List.nodup_cons] at h
    unfold set
    by_cases hjk : j = k
    · rw [if_pos (beq_iff_eq.mpr hjk), List.map_cons, List.nodup_cons]
      exact hjk ▸ h
    · rw [if_neg (by simpa using hjk), List.map_cons, List.nodup_cons]
      refine ⟨fun hmem => ?_, ih h.2⟩
      rcases mem_keys_set hmem with heq | hmem
      · exact hjk heq
      · exact h.1 hmem

/-! ## What holds of all entries -/

section Entries

variable {P : κ × α → Prop} {m : Assoc κ α}

omit [LawfulBEq κ]

theorem forall_set (h : ∀ e ∈ m, P e) {k : κ} {a : α} (ha : P (k, a)) : ∀ e ∈ set m k a, P e := by
  induction m with
  | nil => exact List.forall_mem_singleton.mpr ha
  | cons p m ih =>
    obtain ⟨hhead, htail⟩ := List.forall_mem_cons.mp h
    unfold set
    split
    · exact List.forall_mem_cons.mpr ⟨ha, htail⟩
    · exact List.forall_mem_cons.mpr ⟨hhead, ih htail⟩

theorem forall_erase (h : ∀ e ∈ m, P e) (k : κ) : ∀ e ∈ erase m k, P e :=
  fun e he => h e (List.mem_filter.mp he).1

omit [BEq κ] in
theorem forall_map (h : ∀ e ∈ m, P e) {f : κ → α → α} (hf : ∀ k a, P (k, a) → P (k, f k a)) :
    ∀ e ∈ m.map fun p => (p.1, f p.1 p.2), P e :=
  List.forall_mem_map.mpr fun e he => hf e.1 e.2 (h e he)

theorem forall_update (h : ∀ e ∈ m, P e) (k : κ) {f : α → α}
    (hf : ∀ j a, P (j, a) → P (j, f a)) : ∀ e ∈ update m k f, P e := by
  rw [update_eq_map]
  refine forall_map (f := fun j a => if j == k then f a else a) h fun j a ha => ?_
  split
  · exact hf j a ha
  · exact ha

end Entries

/-! ## Parts -/

section Parts

variable {P Q : κ → Prop} {m : Assoc κ α}

open Classical in
/-- The entries whose keys have a property. -/
noncomputable def part (P : κ → Prop) (m : Assoc κ α) : Assoc κ α := m.filter fun e => P e.1

omit [BEq κ] [LawfulBEq κ]

theorem part_cons_pos {e : κ × α} (h : P e.1) : part P (e :: m) = e :: part P m := by
  unfold part
  exact List.filter_cons_of_pos (by simpa using h)

theorem part_cons_neg {e : κ × α} (h : ¬P e.1) : part P (e :: m) = part P m := by
  unfold part
  exact List.filter_cons_of_neg (by simpa using h)

theorem mem_part {e : κ × α} : e ∈ part P m ↔ e ∈ m ∧ P e.1 := by
  simp [part]

theorem part_congr (h : ∀ e ∈ m, P e.1 ↔ Q e.1) : part P m = part Q m := by
  unfold part
  exact List.filter_congr fun e he => decide_eq_decide.mpr (h e he)

/-- A part has all that is under its keys. -/
theorem get?_part [BEq κ] [LawfulBEq κ] {k : κ} (h : P k) : get? (part P m) k = get? m k := by
  induction m with
  | nil => rfl
  | cons e m ih =>
    obtain ⟨j, a⟩ := e
    by_cases hj : P j
    · rw [part_cons_pos hj]
      by_cases hjk : j = k
      · rw [hjk, get?_cons_self, get?_cons_self]
      · rw [get?_cons_ne hjk, get?_cons_ne hjk]
        exact ih
    · have hjk : j ≠ k := fun heq => hj (heq ▸ h)
      rw [part_cons_neg hj, get?_cons_ne hjk]
      exact ih

end Parts

end HostSql.Assoc
