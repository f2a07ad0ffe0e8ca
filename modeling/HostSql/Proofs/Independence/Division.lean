import HostSql.Proofs.Matching.Sessions
import HostSql.Proofs.Numbering.Sessions

/-!
# Worlds divided between two parties

Two parties that have all names between them can have all numbers between them as well. What a world
holds under the names and the numbers of a party is the party's own, and it refers to nothing else; one of
the parties may have files, and then the other one has private memory only. A world in which this is so is
`Divided`.

What one party does then depends on its own part, changes nothing of the other's, and leaves the world
divided, for the numbers that are given out meanwhile are its own.

> `Divided.matched`: worlds that share what a party owns are matched for it.
> `Divided.after`: what a party does leaves the world divided and the other party's part as it was.
-/

namespace HostSql

open Engine (World Matched Numbered)
open Assoc (part)

/-- Numbers with a property, which stand for themselves. -/
def Itself (own : Nat → Prop) (k l : Nat) : Prop := k = l ∧ own k

theorem Itself.oneToOne {own : Nat → Prop} : OneToOne (Itself own) where
  right h h' := h.1.symm.trans h'.1
  left h h' := h.1.trans h'.1.symm

/-! ## Parties -/

/-- What a world holds of a party refers to the party's own things only. -/
structure Party.Owns (p : Party) (own : Nat → Prop) (files : Prop) (w : SessionWorld) : Prop where
  volumes : ∀ e ∈ w.volumes, own e.1 → e.2.path.isSome → files
  connections : ∀ e ∈ w.connections, own e.1 → e.2.Same (Itself own) e.2
  statements : ∀ e ∈ w.statements, own e.1 → e.2.Same (Itself own) e.2
  records : ∀ e ∈ w.host.records, own e.1 → e.2.callbacks.Confined p
  policies : ∀ e ∈ w.host.policies, own e.1 → e.2.Confined p
  named : ∀ e ∈ w.host.connections, p.connection e.1 → e.2.Same (Itself own) e.2
  handles : ∀ e ∈ w.host.handles, p.handle e.1 → e.2.Same (Itself own) e.2
  compiled : ∀ e ∈ w.host.statements, p.statement e.1 →
    p.connection e.2.1 ∧ e.2.2.Same (Itself own) e.2.2

/-- Worlds hold the same of a party, in the same order. -/
structure Party.Shares (p : Party) (own : Nat → Prop) (w w' : SessionWorld) : Prop where
  volumes : part own w.volumes = part own w'.volumes
  connections : part own w.connections = part own w'.connections
  statements : part own w.statements = part own w'.statements
  records : part own w.host.records = part own w'.host.records
  policies : part own w.host.policies = part own w'.host.policies
  named : part p.connection w.host.connections = part p.connection w'.host.connections
  handles : part p.handle w.host.handles = part p.handle w'.host.handles
  compiled : part p.statement w.host.statements = part p.statement w'.host.statements

/-- The party that has all names that a party does not have. -/
def Party.others (p : Party) : Party :=
  ⟨fun name => ¬p.connection name, fun name => ¬p.statement name, fun name => ¬p.handle name⟩

/-- Parties that have all names between them. -/
structure Party.Complements (p q : Party) : Prop where
  connection : ∀ name, q.connection name ↔ ¬p.connection name
  statement : ∀ name, q.statement name ↔ ¬p.statement name
  handle : ∀ name, q.handle name ↔ ¬p.handle name

theorem Party.Complements.symm {p q : Party} (h : p.Complements q) : q.Complements p where
  connection name := by rw [h.connection, not_not]
  statement name := by rw [h.statement, not_not]
  handle name := by rw [h.handle, not_not]

theorem Party.complements_others (p : Party) : p.Complements p.others :=
  ⟨fun _ => Iff.rfl, fun _ => Iff.rfl, fun _ => Iff.rfl⟩

/-! ## Divided worlds -/

/-- A world between two steps of a session, all of which belongs to one of two parties. -/
structure Divided (p q : Party) (own other : Nat → Prop) (files files' : Prop) (w : SessionWorld) :
    Prop where
  numbered : Numbered Host.Below 0 w
  numbers : ∀ k, k < w.nextId ↔ own k ∨ other k
  disjoint : ∀ k, own k → ¬other k
  names : p.Complements q
  exclusive : files → ¬files'
  mine : p.Owns own files w
  theirs : q.Owns other files' w
  events : w.host.events = []
  log : w.host.log = []

namespace Divided

variable {p q : Party} {own other other' : Nat → Prop} {files files' : Prop} {w w' : SessionWorld}

theorem symm (h : Divided p q own other files files' w) :
    Divided q p other own files' files w where
  numbered := h.numbered
  numbers k := (h.numbers k).trans or_comm
  disjoint k hother hown := h.disjoint k hown hother
  names := h.names.symm
  exclusive hfiles' hfiles := h.exclusive hfiles hfiles'
  mine := h.theirs
  theirs := h.mine
  events := h.events
  log := h.log

theorem lt (h : Divided p q own other files files' w) {k : Nat} (hk : own k) : k < w.nextId :=
  (h.numbers k).mpr (.inl hk)

/-- Numbers that have been given out and are not one party's are the other's. -/
theorem other_iff (h : Divided p q own other files files' w) {k : Nat} (hk : k < w.nextId) :
    other k ↔ ¬own k := by
  constructor
  · exact fun hother hown => h.disjoint k hown hother
  · exact ((h.numbers k).mp hk).resolve_left

end Divided

/-! ## What is shared -/

/-- Two worlds share what a party has in both; the rest of each is what it has not. -/
noncomputable def Party.holding (p : Party) (own : Nat → Prop) (files : Prop) (w w' : SessionWorld) :
    Holding where
  kept := Itself own
  kept_oneToOne := Itself.oneToOne
  first := w.nextId
  first' := w'.nextId
  rest := ⟨part (¬own ·) w.volumes, part (¬own ·) w.connections, part (¬own ·) w.statements⟩
  rest' := ⟨part (¬own ·) w'.volumes, part (¬own ·) w'.connections, part (¬own ·) w'.statements⟩
  files := files
  party := p
  host := ⟨part (¬own ·) w.host.records, part (¬own ·) w.host.policies,
    part (¬p.connection ·) w.host.connections, part (¬p.handle ·) w.host.handles,
    part (¬p.statement ·) w.host.statements⟩
  host' := ⟨part (¬own ·) w'.host.records, part (¬own ·) w'.host.policies,
    part (¬p.connection ·) w'.host.connections, part (¬p.handle ·) w'.host.handles,
    part (¬p.statement ·) w'.host.statements⟩

/-- Worlds of sessions that are matched. -/
abbrev Holding.Matched (S : Holding) (w w' : SessionWorld) : Prop :=
  Engine.Matched S.toMatching (Seat.plain.Seated S fun _ => True) w w'

namespace Divided

variable {p q : Party} {own other other' : Nat → Prop} {files files' : Prop} {w w' : SessionWorld}
  (h : Divided p q own other files files' w) (h' : Divided p q own other' files files' w')

section Shared

include h

/-- What is not a party's stands for nothing. -/
theorem not_same {k l : Nat} (hk : other k) : ¬(p.holding own files w w').Same k l := by
  have hlt : k < w.nextId := (h.numbers k).mpr (.inr hk)
  rintro (⟨hkept, -, -⟩ | ⟨i, hi, -⟩)
  · exact h.disjoint k hkept.2 hk
  · have hfirst : (p.holding own files w w').first = w.nextId := rfl
    omega

theorem not_same' {k l : Nat} (hl : other l) : ¬(p.holding own files w' w).Same k l := by
  have hlt : l < w.nextId := (h.numbers l).mpr (.inr hl)
  rintro (⟨hkept, -, -⟩ | ⟨i, -, hi⟩)
  · exact h.disjoint k hkept.2 (hkept.1 ▸ hl)
  · have hfirst : (p.holding own files w' w).first' = w.nextId := rfl
    omega

/-- The entries of a table whose numbers are not a party's are the other's. -/
theorem rest_other {α : Type} {m : Assoc Nat α} (hm : ∀ e ∈ m, e.1 < w.nextId) {e : Nat × α}
    (he : e ∈ part (¬own ·) m) : e ∈ m ∧ other e.1 := by
  obtain ⟨hmem, hown⟩ := Assoc.mem_part.mp he
  exact ⟨hmem, (h.other_iff (hm e hmem)).mpr hown⟩

/-- Paths are found with the party that may have files. -/
theorem rest_path (hfiles : files) {e : Nat × Engine.Volume} (he : e ∈ part (¬own ·) w.volumes) :
    e.2.path = none := by
  obtain ⟨hmem, hother⟩ := h.rest_other h.numbered.volumes he
  cases hpath : e.2.path with
  | none => rfl
  | some path =>
    have hfiles' := h.theirs.volumes e hmem hother (by rw [hpath]; rfl)
    exact absurd hfiles' (h.exclusive hfiles)

theorem rest_volume {e : Nat × Engine.Connection} (he : e ∈ part (¬own ·) w.connections) :
    other e.2.volume := by
  obtain ⟨hmem, hother⟩ := h.rest_other (fun e he => (h.numbered.connections e he).1) he
  exact (h.theirs.connections e hmem hother).parts.1.2

theorem rest_connection {e : Nat × Engine.Statement} (he : e ∈ part (¬own ·) w.statements) :
    other e.2.connection := by
  obtain ⟨hmem, hother⟩ := h.rest_other (fun e he => (h.numbered.statements e he).1) he
  exact (h.theirs.statements e hmem hother).parts.1.2

theorem rest_compiled {e : String × String × Statement}
    (he : e ∈ part (¬p.statement ·) w.host.statements) : ¬p.connection e.2.1 := by
  obtain ⟨hmem, hstatement⟩ := Assoc.mem_part.mp he
  have hconnection := (h.theirs.compiled e hmem ((h.names.statement e.1).mpr hstatement)).1
  exact (h.names.connection e.2.1).mp hconnection

end Shared

include h h'

theorem same_self {k : Nat} (hk : own k) : (p.holding own files w w').Same k k :=
  .inl ⟨⟨rfl, hk⟩, h.lt hk, h'.lt hk⟩

theorem same_of_itself {k l : Nat} (hkl : Itself own k l) : (p.holding own files w w').Same k l := by
  obtain ⟨heq, hk⟩ := hkl
  cases heq
  exact h.same_self h' hk

/-- What one party has refers to nothing of the other's. -/
theorem apart : (p.holding own files w w').Apart where
  world :=
    { volume := fun _ he _ => h.not_same (h.rest_volume he)
      volume' := fun _ he _ => h'.not_same' (h'.rest_volume he)
      connection := fun _ he _ => h.not_same (h.rest_connection he)
      connection' := fun _ he _ => h'.not_same' (h'.rest_connection he)
      path := fun hfiles _ he => h.rest_path hfiles he
      path' := fun hfiles _ he => h'.rest_path hfiles he }
  statement _ he := h.rest_compiled he
  statement' _ he := h'.rest_compiled he

/-- Tables that have a party's entries in common. -/
theorem aligned {α : Type} {R : α → α → Prop} {m m' : Assoc Nat α} (hm : ∀ e ∈ m, e.1 < w.nextId)
    (hm' : ∀ e ∈ m', e.1 < w'.nextId) (hpart : part own m = part own m')
    (hR : ∀ e ∈ m, own e.1 → R e.2 e.2) :
    Aligned (p.holding own files w w').Same R (part (¬own ·) m) (part (¬own ·) m') m m' := by
  refine .of_part hpart (fun e he hown => ⟨h.same_self h' hown, hR e he hown⟩)
    (fun e he hown l => ?_) fun e he hown k => ?_
  · exact h.not_same ((h.other_iff (hm e he)).mpr hown)
  · exact h'.not_same' ((h'.other_iff (hm' e he)).mpr hown)

omit h h' in
/-- Tables that have the entries of some names in common. -/
theorem aligned_named {α : Type} {R : α → α → Prop} {P : String → Prop} {m m' : Assoc String α}
    (hpart : part P m = part P m') (hR : ∀ e ∈ m, P e.1 → R e.2 e.2) :
    Aligned (Named P) R (part (¬P ·) m) (part (¬P ·) m') m m' :=
  .of_part hpart (fun e he hP => ⟨.self hP, hR e he hP⟩) (fun _ _ hP _ hname => hP hname.1)
    fun _ _ hP _ hname => hP (hname.2 ▸ hname.1)

/-- Worlds that share what a party owns are matched for it. -/
theorem matched (hshares : p.Shares own w w') : (p.holding own files w w').Matched w w' := by
  have hsame {k l : Nat} (hkl : Itself own k l) (_ : Itself own l l) :
      (p.holding own files w w').Same k l := h.same_of_itself h' hkl
  refine ⟨?_, ?_, ?_, ⟨0, rfl, rfl⟩, ⟨?_, trivial⟩⟩
  · exact h.aligned h' h.numbered.volumes h'.numbered.volumes hshares.volumes
      fun e he hown => ⟨rfl, h.mine.volumes e he hown⟩
  · refine h.aligned h' (fun e he => (h.numbered.connections e he).1)
      (fun e he => (h'.numbered.connections e he).1) hshares.connections fun e he hown => ?_
    have hself := h.mine.connections e he hown
    exact hself.confine (fun _ _ => hsame) hself
  · refine h.aligned h' (fun e he => (h.numbered.statements e he).1)
      (fun e he => (h'.numbered.statements e he).1) hshares.statements fun e he hown => ?_
    have hself := h.mine.statements e he hown
    exact hself.confine (fun _ _ => hsame) hself
  · refine ⟨?_, ?_, aligned_named hshares.named fun e he hname => ?_,
      aligned_named hshares.handles fun e he hname => ?_,
      aligned_named hshares.compiled fun e he hname => ?_, ?_, ?_⟩
    · exact h.aligned h' h.numbered.host.records h'.numbered.host.records hshares.records
        fun e he hown => ⟨rfl, h.mine.records e he hown⟩
    · exact h.aligned h' h.numbered.host.policies h'.numbered.host.policies hshares.policies
        fun e he hown => ⟨rfl, h.mine.policies e he hown⟩
    · have hself := h.mine.named e he hname
      exact hself.confine (fun _ _ => hsame) hself
    · exact h.same_of_itself h' (h.mine.handles e he hname)
    · obtain ⟨hconnection, hself⟩ := h.mine.compiled e he hname
      exact ⟨.self hconnection, hself.confine (fun _ _ => hsame) hself⟩
    · exact h.events.trans h'.events.symm
    · exact h.log.trans h'.log.symm

end Divided

/-! ## What a party does -/

/-- A party's numbers and those given out since. -/
def Grown (own : Nat → Prop) (w w' : SessionWorld) (k : Nat) : Prop :=
  own k ∨ (w.nextId ≤ k ∧ k < w'.nextId)

/-- Entries of a part that two lists have in common. -/
theorem Assoc.mem_of_part_eq {κ α : Type} {P : κ → Prop} {m m' : Assoc κ α}
    (hpart : part P m = part P m') {e : κ × α} (he : e ∈ m') (hP : P e.1) : e ∈ m :=
  (Assoc.mem_part.mp (hpart ▸ Assoc.mem_part.mpr ⟨he, hP⟩)).1

/-- What a party owns does not depend on the rest of the world. -/
theorem Party.Owns.shared {p : Party} {own : Nat → Prop} {files : Prop} {w w' : SessionWorld}
    (h : p.Owns own files w) (hshares : p.Shares own w w') : p.Owns own files w' where
  volumes e he hown := h.volumes e (Assoc.mem_of_part_eq hshares.volumes he hown) hown
  connections e he hown := h.connections e (Assoc.mem_of_part_eq hshares.connections he hown) hown
  statements e he hown := h.statements e (Assoc.mem_of_part_eq hshares.statements he hown) hown
  records e he hown := h.records e (Assoc.mem_of_part_eq hshares.records he hown) hown
  policies e he hown := h.policies e (Assoc.mem_of_part_eq hshares.policies he hown) hown
  named e he hname := h.named e (Assoc.mem_of_part_eq hshares.named he hname) hname
  handles e he hname := h.handles e (Assoc.mem_of_part_eq hshares.handles he hname) hname
  compiled e he hname := h.compiled e (Assoc.mem_of_part_eq hshares.compiled he hname) hname

namespace Divided

variable {p q : Party} {own other : Nat → Prop} {files files' : Prop} {w w' : SessionWorld}
  (h : Divided p q own other files files' w) (hlinked : (p.holding own files w w).Matched w' w')

include h

/-- In a world that is shared with itself numbers stand for themselves. -/
theorem same_iff {k l : Nat} :
    (p.holding own files w w).Same k l ↔ k = l ∧ (own k ∨ w.nextId ≤ k) := by
  constructor
  · rintro (⟨hkept, -, -⟩ | ⟨i, hk, hl⟩)
    · exact ⟨hkept.1, .inl hkept.2⟩
    · have hfirst : (p.holding own files w w).first = w.nextId := rfl
      have hfirst' : (p.holding own files w w).first' = w.nextId := rfl
      exact ⟨by omega, .inr (by omega)⟩
  · rintro ⟨rfl, hown | hnew⟩
    · exact h.same_self h hown
    · exact .inr ⟨k - w.nextId, (Nat.add_sub_of_le hnew).symm, (Nat.add_sub_of_le hnew).symm⟩

theorem other_iff_not_same (k : Nat) : other k ↔ ∀ l, ¬(p.holding own files w w).Same k l := by
  constructor
  · exact fun hother l => h.not_same hother
  · intro hnone
    have hk : ¬(own k ∨ w.nextId ≤ k) := fun hk => hnone k (h.same_iff.mpr ⟨rfl, hk⟩)
    have hlt : k < w.nextId := by omega
    exact (h.other_iff hlt).mpr fun hown => hk (.inl hown)

/-- The other party's entries are left as they are. -/
theorem part_after {α : Type} {R : α → α → Prop} {m m' : Assoc Nat α}
    (hm : ∀ e ∈ m, e.1 < w.nextId) {rest' : Assoc Nat α}
    (haligned : Aligned (p.holding own files w w).Same R (part (¬own ·) m) rest' m' m') :
    part other m = part other m' := by
  rw [haligned.part_rest h.other_iff_not_same]
  exact Assoc.part_congr fun e he => h.other_iff (hm e he)

omit h in
theorem part_named {α : Type} {R : α → α → Prop} {P Q : String → Prop} (hPQ : ∀ n, Q n ↔ ¬P n)
    {m m' rest' : Assoc String α} (haligned : Aligned (Named P) R (part (¬P ·) m) rest' m' m') :
    part Q m = part Q m' := by
  rw [haligned.part_rest (P := Q) fun n => (hPQ n).trans ⟨fun hP _ h => hP h.1, fun h hP => h n (.self hP)⟩]
  exact Assoc.part_congr fun e _ => hPQ e.1

include hlinked in
/-- A party leaves the other's part as it is. -/
theorem shares_after : q.Shares other w w' where
  volumes := h.part_after h.numbered.volumes hlinked.volumes
  connections := h.part_after (fun e he => (h.numbered.connections e he).1) hlinked.connections
  statements := h.part_after (fun e he => (h.numbered.statements e he).1) hlinked.statements
  records := h.part_after h.numbered.host.records hlinked.host.1.records
  policies := h.part_after h.numbered.host.policies hlinked.host.1.policies
  named := part_named h.names.connection hlinked.host.1.connections
  handles := part_named h.names.handle hlinked.host.1.handles
  compiled := part_named h.names.statement hlinked.host.1.statements

/-- The party's entries, new ones among them. -/
theorem grown_of_aligned {α : Type} {R : α → α → Prop} {m m' : Assoc Nat α}
    (hm : ∀ e ∈ m, e.1 < w.nextId)
    (haligned : Aligned (p.holding own files w w).Same R (part (¬own ·) m) (part (¬own ·) m) m' m') :
    ∀ e ∈ m', Grown own w w' e.1 → R e.2 e.2 := by
  have hrest (e : Nat × α) (he : e ∈ part (¬own ·) m) : ¬(own e.1 ∨ w.nextId ≤ e.1) := by
    obtain ⟨hmem, hown⟩ := Assoc.mem_part.mp he
    have hlt := hm e hmem
    rintro (hown' | hnew)
    · exact hown hown'
    · omega
  intro e he hgrown
  refine haligned.diagonal (P := fun k => own k ∨ w.nextId ≤ k) (fun k l hkl => ?_) hrest hrest e he
    (hgrown.imp_right And.left)
  obtain ⟨heq, hk⟩ := h.same_iff.mp hkl
  exact ⟨hk, heq ▸ hk⟩

omit h in
theorem named_of_aligned {α : Type} {R : α → α → Prop} {P : String → Prop} {m m' : Assoc String α}
    (haligned : Aligned (Named P) R (part (¬P ·) m) (part (¬P ·) m) m' m') :
    ∀ e ∈ m', P e.1 → R e.2 e.2 :=
  haligned.diagonal (fun _ _ hname => ⟨hname.1, hname.2 ▸ hname.1⟩)
    (fun _ he => (Assoc.mem_part.mp he).2) fun _ he => (Assoc.mem_part.mp he).2

include hlinked in
/-- What a party has afterwards refers to its own things, new ones among them. -/
theorem owns_after (hnumbered : Numbered Host.Below w.nextId w') :
    p.Owns (Grown own w w') files w' := by
  have hgrown {k l : Nat} (hkl : (p.holding own files w w).Same k l) (hl : Below w'.nextId l l) :
      Itself (Grown own w w') k l := by
    obtain ⟨heq, hk⟩ := h.same_iff.mp hkl
    exact ⟨heq, hk.imp_right fun hnew => ⟨hnew, heq ▸ hl.2⟩⟩
  have hhost := hlinked.host.1
  have hbelow := hnumbered.host
  refine ⟨?_, ?_, ?_, ?_, ?_, ?_, ?_, ?_⟩
  · exact fun e he hown =>
      (h.grown_of_aligned h.numbered.volumes hlinked.volumes e he hown).2
  · intro e he hown
    have hself := h.grown_of_aligned (fun e he => (h.numbered.connections e he).1)
      hlinked.connections e he hown
    exact hself.confine (fun _ _ => hgrown) (hnumbered.connections e he).2
  · intro e he hown
    have hself := h.grown_of_aligned (fun e he => (h.numbered.statements e he).1)
      hlinked.statements e he hown
    exact hself.confine (fun _ _ => hgrown) (hnumbered.statements e he).2
  · exact fun e he hown =>
      (h.grown_of_aligned h.numbered.host.records hhost.records e he hown).2
  · exact fun e he hown =>
      (h.grown_of_aligned h.numbered.host.policies hhost.policies e he hown).2
  · intro e he hname
    exact (named_of_aligned hhost.connections e he hname).confine (fun _ _ => hgrown)
      (hbelow.connections e he)
  · intro e he hname
    exact hgrown (named_of_aligned hhost.handles e he hname) (.self (hbelow.handles e he))
  · intro e he hname
    obtain ⟨hconnection, hself⟩ := named_of_aligned hhost.statements e he hname
    exact ⟨hconnection.1, hself.confine (fun _ _ => hgrown) (hbelow.statements e he)⟩

include hlinked in
/-- What a party does leaves the world divided; the numbers given out meanwhile are its own. -/
theorem after (hnumbered : Numbered Host.Below w.nextId w') (hevents : w'.host.events = [])
    (hlog : w'.host.log = []) :
    Divided p q (Grown own w w') other files files' w' where
  numbered := hnumbered.mono (Nat.zero_le _)
  numbers k := by
    have hgiven := hnumbered.given
    have hk := h.numbers k
    constructor
    · intro hlt
      by_cases hold : k < w.nextId
      · exact (hk.mp hold).imp_left .inl
      · exact .inl (.inr ⟨by omega, hlt⟩)
    · rintro ((hown | hnew) | hother)
      · exact Nat.lt_of_lt_of_le (hk.mpr (.inl hown)) hgiven
      · exact hnew.2
      · exact Nat.lt_of_lt_of_le (hk.mpr (.inr hother)) hgiven
  disjoint k hgrown hother := by
    have hlt := (h.numbers k).mpr (.inr hother)
    rcases hgrown with hown | hnew
    · exact h.disjoint k hown hother
    · omega
  names := h.names
  exclusive := h.exclusive
  mine := h.owns_after hlinked hnumbered
  theirs := h.theirs.shared (h.shares_after hlinked)
  events := hevents
  log := hlog

end Divided

end HostSql
