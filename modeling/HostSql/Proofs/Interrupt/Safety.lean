import HostSql.Proofs.Connection.Calls
import HostSql.Proofs.Interrupt.Sections

/-!
# Interrupt handles are safe

> `interrupts_lawful`: whatever the sections are and whatever happens between them, an interruption
> through a handle reaches the connection that the handle was taken from, or nothing at all once
> that connection is closed or dropped. The numbers of the engine's connections may be used again.
> `interrupt_alone`, `ending_alone`: with no other thread in between, the sections of a handle and of
> an owner are `InterruptHandle.interrupt`, `Connection.close` and `Connection.drop`.

What holds of the shared state after some sections (`SharedAt`) says of each connection whether its
cell has been emptied. Each section leaves that alone (`SharedAt.keep`), adds a connection or a
handle, or changes one connection (`SharedAt.change`); the rest is an induction on the sections.
-/

namespace HostSql

open Beside

variable {σ α : Type}

/-! ## One connection -/

/-- What holds of a connection as it is shared, given the engine's number of it and whether the cell
has been emptied. -/
structure ShareAt (k : Nat) (emptied : Bool) (share : Share) : Prop where
  cell : share.cell = if emptied then none else some k
  value : share.value.native? = if emptied then none else some k
  leaving : ∀ c ending, share.leaving? = some (c, ending) → emptied = true ∧ c.native? = some k

/-- Calls other than `close` do not take the connection of a value away, nor give it one. -/
theorem perform_native (m : Native σ) (c : Connection) {request : ConnectionCall}
    (hrequest : request.isClose = false) (w : σ) :
    ((c.perform m request).run w).1.2.native? = c.native? := by
  cases hnative : c.native? with
  | none =>
    obtain ⟨answer, hrun, -⟩ := perform_closed m hnative request w
    rw [hrun]
    exact hnative
  | some k =>
    obtain ⟨-, functions, hnext⟩ := perform_open m hnative request hrequest w
    rw [hnext]
    exact hnative

/-- What is left of closing or dropping an open value asks for its release, once. -/
theorem Ending.finish_asks (n : Native σ) {c : Connection} {k : Nat} (h : c.native? = some k)
    (ending : Ending) (w : σ) :
    ((ending.finish n.asking c).run ⟨w, []⟩).2.own = [.disconnect k] := by
  have hdisconnect : (n.asking.disconnect k).run ⟨w, []⟩ =
      (((n.disconnect k).run w).1, ⟨((n.disconnect k).run w).2, [.disconnect k]⟩) := rfl
  cases ending with
  | drop =>
    unfold Ending.finish Connection.drop
    simp only [h, run_bind, hdisconnect]
    rfl
  | close =>
    show ((c.close n.asking).run ⟨w, []⟩).2.own = _
    unfold Connection.close
    simp only [h, run_bind, hdisconnect]
    cases ((n.disconnect k).run w).1 with
    | none => rfl
    | some failure => rfl

/-! ## The shared state -/

/-- What holds of the shared state after some sections. -/
structure SharedAt (earlier : List (SectionEntry σ)) (s : Sharing) : Prop where
  count : s.shares.length = (numbersIn earlier).length
  share : ∀ i share, s.shares[i]? = some share → ∃ k, (numbersIn earlier)[i]? = some k ∧
    ShareAt k (earlier.any (·.empties i)) share
  sources : s.handles.map (·.share) = sourcesIn earlier
  handle : ∀ h ∈ s.handles, (numbersIn earlier)[h.share]? = some h.handle.connection
  released : ∀ i, earlier.any (·.releases i) = true → earlier.any (·.empties i) = true
  /-- Nothing has happened yet to connections that have not been opened yet. -/
  fresh : ∀ i, s.shares.length ≤ i → earlier.any (·.empties i) = false

theorem numbersIn_append (earlier : List (SectionEntry σ)) (e : SectionEntry σ) :
    numbersIn (earlier ++ [e]) = numbersIn earlier ++ e.opened?.toList := by
  unfold numbersIn
  rw [List.filterMap_append]
  cases h : e.opened? <;> simp [h]

theorem numbersIn_append_none (earlier : List (SectionEntry σ)) {e : SectionEntry σ}
    (h : e.opened? = none) : numbersIn (earlier ++ [e]) = numbersIn earlier := by
  rw [numbersIn_append, h]
  exact List.append_nil _

theorem sourcesIn_append (earlier : List (SectionEntry σ)) (e : SectionEntry σ) :
    sourcesIn (earlier ++ [e]) = sourcesIn earlier ++ (e.source? (sourcesIn earlier)).toList := by
  unfold sourcesIn
  rw [List.foldl_append]
  rfl

theorem any_append_singleton (earlier : List (SectionEntry σ)) (e : SectionEntry σ)
    (p : SectionEntry σ → Bool) : (earlier ++ [e]).any p = (earlier.any p || p e) := by
  simp

namespace SharedAt

variable {earlier : List (SectionEntry σ)} {s : Sharing} {e : SectionEntry σ}

theorem nil : SharedAt ([] : List (SectionEntry σ)) .empty where
  count := rfl
  share := nofun
  sources := rfl
  handle := nofun
  released := nofun
  fresh _ _ := rfl

/-- A section that changes one connection, and opens or takes nothing. -/
theorem change (h : SharedAt earlier s) {i : Nat} {share share' : Share}
    (hshare : s.shares[i]? = some share) (hopened : e.opened? = none)
    (hsource : e.source? (sourcesIn earlier) = none) (hothers : ∀ j, j ≠ i → e.empties j = false)
    (hreleases : ∀ j, e.releases j = true → earlier.any (·.empties j) = true)
    (hnew : ∀ k, ShareAt k (earlier.any (·.empties i)) share →
      ShareAt k (earlier.any (·.empties i) || e.empties i) share') :
    SharedAt (earlier ++ [e]) (s.setShare i share') := by
  have hlt : i < s.shares.length := (List.getElem?_eq_some_iff.mp hshare).1
  have hnumbers := numbersIn_append_none earlier hopened
  refine ⟨?_, ?_, ?_, ?_, ?_, ?_⟩
  · rw [hnumbers]
    exact (List.length_set ..).trans h.count
  · intro j share₁ hshare₁
    rw [hnumbers, any_append_singleton]
    by_cases hji : j = i
    · subst hji
      have heq : share' = share₁ := by
        have hset : (s.shares.set j share')[j]? = some share' := List.getElem?_set_self hlt
        exact Option.some.inj (hset.symm.trans hshare₁)
      obtain ⟨k, hk, hat⟩ := h.share j share hshare
      exact ⟨k, hk, heq ▸ hnew k hat⟩
    · have hsame : s.shares[j]? = some share₁ := by
        rw [← hshare₁]
        exact (List.getElem?_set_ne (Ne.symm hji)).symm
      rw [hothers j hji, Bool.or_false]
      exact h.share j share₁ hsame
  · rw [sourcesIn_append, hsource]
    exact h.sources.trans (List.append_nil _).symm
  · rw [hnumbers]
    exact h.handle
  · intro j hj
    rw [any_append_singleton] at hj ⊢
    rcases Bool.or_eq_true_iff.mp hj with hj | hj
    · rw [h.released j hj, Bool.true_or]
    · rw [hreleases j hj, Bool.true_or]
  · intro j hj
    have hj : s.shares.length ≤ j := by simpa [Sharing.setShare] using hj
    rw [any_append_singleton, h.fresh j hj, hothers j (by omega)]
    rfl

/-- What is known of endings stays known when a section has nothing to do with any. -/
theorem endings (h : SharedAt earlier s) (hempties : ∀ j, e.empties j = false)
    (hreleases : ∀ j, e.releases j = false) :
    (∀ j, (earlier ++ [e]).any (·.empties j) = earlier.any (·.empties j)) ∧
      ∀ j, (earlier ++ [e]).any (·.releases j) = true →
        (earlier ++ [e]).any (·.empties j) = true := by
  have hsame (j : Nat) : (earlier ++ [e]).any (·.empties j) = earlier.any (·.empties j) := by
    rw [any_append_singleton, hempties, Bool.or_false]
  refine ⟨hsame, fun j hj => ?_⟩
  rw [any_append_singleton, hreleases, Bool.or_false] at hj
  rw [hsame]
  exact h.released j hj

/-- A section that opens a connection. -/
theorem add (h : SharedAt earlier s) {c : Connection} {k : Nat} (hopen : c.native? = some k)
    (hopened : e.opened? = some k) (hsource : e.source? (sourcesIn earlier) = none)
    (hempties : ∀ j, e.empties j = false) (hreleases : ∀ j, e.releases j = false) :
    SharedAt (earlier ++ [e]) { s with shares := s.shares ++ [⟨c, c.native?, none⟩] } := by
  obtain ⟨hsame, hreleased⟩ := h.endings hempties hreleases
  have hnumbers : numbersIn (earlier ++ [e]) = numbersIn earlier ++ [k] := by
    rw [numbersIn_append, hopened]
    rfl
  have hgrows {i k' : Nat} (hi : (numbersIn earlier)[i]? = some k') :
      (numbersIn earlier ++ [k])[i]? = some k' := by
    rw [List.getElem?_append_left (List.getElem?_eq_some_iff.mp hi).1]
    exact hi
  refine ⟨?_, ?_, ?_, ?_, hreleased, ?_⟩
  · rw [hnumbers, List.length_append, List.length_append, h.count]
    rfl
  · intro j share hshare
    rw [hnumbers, hsame]
    by_cases hj : j < s.shares.length
    · have hold : s.shares[j]? = some share := by
        rw [← hshare]
        exact (List.getElem?_append_left hj).symm
      obtain ⟨k', hk', hat⟩ := h.share j share hold
      exact ⟨k', hgrows hk', hat⟩
    · -- the only other place is that of the new connection
      have hlt : j < s.shares.length + 1 := by
        simpa using (List.getElem?_eq_some_iff.mp hshare).1
      have hlast : j = s.shares.length := by omega
      subst hlast
      have hnew : share = ⟨c, c.native?, none⟩ := by
        have hget : (s.shares ++ [⟨c, c.native?, none⟩])[s.shares.length]? = _ :=
          List.getElem?_concat_length
        exact (Option.some.inj (hget.symm.trans hshare)).symm
      subst hnew
      rw [h.fresh _ (Nat.le_refl _)]
      refine ⟨k, ?_, hopen, hopen, nofun⟩
      rw [h.count]
      exact List.getElem?_concat_length
  · rw [sourcesIn_append, hsource]
    exact h.sources.trans (List.append_nil _).symm
  · intro handle hhandle
    rw [hnumbers]
    exact hgrows (h.handle handle hhandle)
  · intro j hj
    have hj : s.shares.length ≤ j := by
      simp only [List.length_append, List.length_singleton] at hj
      omega
    rw [hsame]
    exact h.fresh j hj

/-- A section that makes handles, or none. -/
theorem addHandles (h : SharedAt earlier s) (handles : List SharedHandle)
    (hopened : e.opened? = none)
    (hsource : (e.source? (sourcesIn earlier)).toList = handles.map (·.share))
    (hhandles : ∀ h ∈ handles, (numbersIn earlier)[h.share]? = some h.handle.connection)
    (hempties : ∀ j, e.empties j = false) (hreleases : ∀ j, e.releases j = false) :
    SharedAt (earlier ++ [e]) { s with handles := s.handles ++ handles } := by
  obtain ⟨hsame, hreleased⟩ := h.endings hempties hreleases
  have hnumbers := numbersIn_append_none earlier hopened
  refine ⟨?_, ?_, ?_, ?_, hreleased, ?_⟩
  · rw [hnumbers]
    exact h.count
  · intro j share hshare
    rw [hnumbers, hsame]
    exact h.share j share hshare
  · rw [sourcesIn_append, hsource, ← h.sources]
    exact List.map_append
  · intro handle hmem
    rw [hnumbers]
    exact (List.mem_append.mp hmem).elim (h.handle handle) (hhandles handle)
  · intro j hj
    rw [hsame]
    exact h.fresh j hj

/-- A section that leaves the shared state as it is. -/
theorem keep (h : SharedAt earlier s) (hopened : e.opened? = none)
    (hsource : e.source? (sourcesIn earlier) = none) (hempties : ∀ j, e.empties j = false)
    (hreleases : ∀ j, e.releases j = false) : SharedAt (earlier ++ [e]) s := by
  have hnone := h.addHandles (e := e) [] hopened (by rw [hsource]; rfl) nofun hempties hreleases
  rwa [List.append_nil] at hnone

end SharedAt

/-! ## One section -/

/-- What there is to tell of a section. -/
def Section.entry (n : Native σ) (s : Sharing) (part : Section) (b : σ) : SectionEntry σ :=
  ⟨part, b, part.asks n s b, ((part.act n s).run b).1.1, ((part.act n s).run b).2⟩

/-- The shared state after a section. -/
def Section.next (n : Native σ) (s : Sharing) (part : Section) (b : σ) : Sharing :=
  ((part.act n s).run b).1.2

/-- What is expected of a section that is no interruption, takes no handle and releases nothing. -/
theorem SectionLawful.other (n : Native σ) {earlier : List (SectionEntry σ)} {e : SectionEntry σ}
    (hinterrupt : ∀ j, e.part ≠ .interrupt j) (htake : ∀ i, e.part ≠ .takeHandle i)
    (hrelease : ∀ i, e.releases i = false) : SectionLawful n earlier e where
  interrupt j _ hj := absurd hj (hinterrupt j)
  absent j hj := absurd hj (hinterrupt j)
  taken i _ hi := absurd hi (htake i)
  release i hi := nomatch (hrelease i).symm.trans hi

namespace Section

section Turn

variable (n : Native σ) {earlier : List (SectionEntry σ)} {s : Sharing}

theorem entry_of_act {part : Section} {answer : SectionAnswer} {s' : Sharing} {b after : σ}
    (h : (part.act n s).run b = ((answer, s'), after)) :
    part.entry n s b = ⟨part, b, part.asks n s b, answer, after⟩ ∧ part.next n s b = s' := by
  unfold Section.entry Section.next
  rw [h]
  exact ⟨rfl, rfl⟩

/-- A section that has nothing to do with the world. -/
theorem entry_of_pure {part : Section} {answer : SectionAnswer} {s' : Sharing}
    (h : ∀ {τ : Type} (m : Native τ) (w : τ), (part.act m s).run w = ((answer, s'), w)) (b : σ) :
    part.entry n s b = ⟨part, b, [], answer, b⟩ ∧ part.next n s b = s' := by
  have hasks : part.asks n s b = [] := by
    unfold Section.asks
    rw [h n.asking ⟨b, []⟩]
  rw [← hasks]
  exact entry_of_act n (h n b)

/-- Opening a database. -/
theorem openNew_spec (h : SharedAt earlier s) (how : Opening) (b : σ) :
    SectionLawful n earlier ((Section.openNew how).entry n s b) ∧
      SharedAt (earlier ++ [(Section.openNew how).entry n s b])
        ((Section.openNew how).next n s b) := by
  refine ⟨.other n nofun nofun fun _ => rfl, ?_⟩
  have hvalue : OpenedValue how.path _ ((how.run n).run b).1 := Opening.run_notes n how b
  cases hanswer : ((how.run n).run b).1 with
  | error error =>
    have hact : ((Section.openNew how).act n s).run b =
        ((.opened (.error error), s), ((how.run n).run b).2) := by
      unfold Section.act
      rw [run_bind, hanswer]
      rfl
    obtain ⟨hentry, hnext⟩ := entry_of_act n hact
    rw [hentry, hnext]
    exact h.keep rfl rfl (fun _ => rfl) fun _ => rfl
  | ok c =>
    rw [hanswer] at hvalue
    obtain ⟨k, -, rfl⟩ := hvalue
    have hact : ((Section.openNew how).act n s).run b =
        ((.opened (.ok ⟨some k, how.path, []⟩),
          { s with shares := s.shares ++ [⟨⟨some k, how.path, []⟩, some k, none⟩] }),
          ((how.run n).run b).2) := by
      unfold Section.act
      rw [run_bind, hanswer]
      rfl
    obtain ⟨hentry, hnext⟩ := entry_of_act n hact
    rw [hentry, hnext]
    exact h.add (c := ⟨some k, how.path, []⟩) rfl rfl rfl (fun _ => rfl) fun _ => rfl

/-- A section that there is nothing to do for. -/
theorem absent_spec (h : SharedAt earlier s) {part : Section}
    (hact : ∀ {τ : Type} (m : Native τ) (w : τ), (part.act m s).run w = ((.absent, s), w))
    (hinterrupt : ∀ j i, part = .interrupt j → (sourcesIn earlier)[j]? ≠ some i) (b : σ) :
    SectionLawful n earlier (part.entry n s b) ∧
      SharedAt (earlier ++ [part.entry n s b]) (part.next n s b) := by
  obtain ⟨hentry, hnext⟩ := entry_of_pure n hact b
  rw [hentry, hnext]
  have hreleases (i : Nat) : SectionEntry.releases i (⟨part, b, [], .absent, b⟩ : SectionEntry σ)
      = false := by
    cases part <;> simp [SectionEntry.releases]
  refine ⟨⟨fun j i hj hi => absurd hi (hinterrupt j i hj), fun _ _ _ => ⟨rfl, rfl, rfl⟩,
    fun _ _ _ => nofun, fun i hi => nomatch (hreleases i).symm.trans hi⟩,
    h.keep rfl ?_ (fun j => ?_) hreleases⟩
  · cases part <;> rfl
  · cases part <;> rfl

/-- A call of a connection, other than `close`. -/
theorem call_spec (h : SharedAt earlier s) (i : Nat) (request : ConnectionCall) (b : σ) :
    SectionLawful n earlier ((Section.call i request).entry n s b) ∧
      SharedAt (earlier ++ [(Section.call i request).entry n s b])
        ((Section.call i request).next n s b) := by
  cases hshare : s.shares[i]? with
  | none =>
    refine absent_spec n h (fun m w => ?_) (by rintro _ _ ⟨⟩) b
    simp only [Section.act, hshare]
    rfl
  | some share =>
    cases hrequest : request.isClose with
    | true =>
      refine absent_spec n h (fun m w => ?_) (by rintro _ _ ⟨⟩) b
      simp only [Section.act, hshare, hrequest]
      rfl
    | false =>
      let p := (share.value.perform n request).run b
      have hact : ((Section.call i request).act n s).run b =
          ((.called p.1.1, s.setShare i { share with value := p.1.2 }), p.2) := by
        simp only [Section.act, hshare, hrequest]
        rfl
      have hvalue : p.1.2.native? = share.value.native? :=
        perform_native n share.value hrequest b
      obtain ⟨hentry, hnext⟩ := entry_of_act n hact
      rw [hentry, hnext]
      refine ⟨.other n nofun nofun fun _ => rfl, ?_⟩
      refine h.change hshare rfl rfl (fun _ _ => rfl) nofun fun k hat => ?_
      show ShareAt k (earlier.any (·.empties i) || false) _
      rw [Bool.or_false]
      exact ⟨hat.cell, hvalue.trans hat.value, hat.leaving⟩

/-- Taking a handle. -/
theorem takeHandle_spec (h : SharedAt earlier s) (i : Nat) (b : σ) :
    SectionLawful n earlier ((Section.takeHandle i).entry n s b) ∧
      SharedAt (earlier ++ [(Section.takeHandle i).entry n s b])
        ((Section.takeHandle i).next n s b) := by
  cases hshare : s.shares[i]? with
  | none =>
    refine absent_spec n h (fun m w => ?_) (by rintro _ _ ⟨⟩) b
    simp only [Section.act, hshare]
    rfl
  | some share =>
    obtain ⟨k, hk, hat⟩ := h.share i share hshare
    cases hanswer : share.value.interruptHandle with
    | error e =>
      have hact {τ : Type} (m : Native τ) (w : τ) :
          ((Section.takeHandle i).act m s).run w = ((.taken (.error e), s), w) := by
        simp only [Section.act, hshare, hanswer]
        rfl
      obtain ⟨hentry, hnext⟩ := entry_of_pure n hact b
      rw [hentry, hnext]
      exact ⟨⟨nofun, nofun, nofun, nofun⟩, h.keep rfl rfl (fun _ => rfl) fun _ => rfl⟩
    | ok handle =>
      have hact {τ : Type} (m : Native τ) (w : τ) :
          ((Section.takeHandle i).act m s).run w =
            ((.taken (.ok handle), s.addHandle ⟨handle, i⟩), w) := by
        simp only [Section.act, hshare, hanswer]
        rfl
      -- the value has a connection, so its cell has not been emptied and this is its number
      have hnumber : handle.connection = k := by
        unfold Connection.interruptHandle at hanswer
        rw [hat.value] at hanswer
        split at hanswer
        · exact nomatch hanswer
        · rename_i heq
          cases hanswer
          split at heq
          · exact nomatch heq
          · exact (Option.some.inj heq).symm
      obtain ⟨hentry, hnext⟩ := entry_of_pure n hact b
      rw [hentry, hnext]
      refine ⟨⟨nofun, nofun, ?_, nofun⟩, ?_⟩
      · rintro _ _ ⟨⟩ ⟨⟩
        rw [hnumber]
        exact hk
      · refine h.addHandles [⟨handle, i⟩] rfl rfl ?_ (fun _ => rfl) fun _ => rfl
        intro h' hmem
        rw [List.mem_singleton.mp hmem, hnumber]
        exact hk

/-- Making a clone of a handle. -/
theorem cloneHandle_spec (h : SharedAt earlier s) (j : Nat) (b : σ) :
    SectionLawful n earlier ((Section.cloneHandle j).entry n s b) ∧
      SharedAt (earlier ++ [(Section.cloneHandle j).entry n s b])
        ((Section.cloneHandle j).next n s b) := by
  cases hhandle : s.handles[j]? with
  | none =>
    refine absent_spec n h (fun m w => ?_) (by rintro _ _ ⟨⟩) b
    simp only [Section.act, hhandle]
    rfl
  | some handle =>
    have hact {τ : Type} (m : Native τ) (w : τ) :
        ((Section.cloneHandle j).act m s).run w = ((.cloned, s.addHandle handle), w) := by
      simp only [Section.act, hhandle]
      rfl
    have hsource : (sourcesIn earlier)[j]? = some handle.share := by
      rw [← h.sources, List.getElem?_map, hhandle]
      rfl
    obtain ⟨hentry, hnext⟩ := entry_of_pure n hact b
    rw [hentry, hnext]
    refine ⟨⟨nofun, nofun, nofun, nofun⟩, h.addHandles [handle] rfl ?_ ?_ (fun _ => rfl)
      fun _ => rfl⟩
    · show ((sourcesIn earlier)[j]?).toList = [handle.share]
      rw [hsource]
      rfl
    · intro h' hmem
      rw [List.mem_singleton.mp hmem]
      exact h.handle handle (List.mem_of_getElem? hhandle)

/-- Emptying the cell of a connection that is closed or dropped. -/
theorem beginEnding_spec (h : SharedAt earlier s) (i : Nat) (ending : Ending) (b : σ) :
    SectionLawful n earlier ((Section.beginEnding i ending).entry n s b) ∧
      SharedAt (earlier ++ [(Section.beginEnding i ending).entry n s b])
        ((Section.beginEnding i ending).next n s b) := by
  cases hshare : s.shares[i]? with
  | none =>
    refine absent_spec n h (fun m w => ?_) (by rintro _ _ ⟨⟩) b
    simp only [Section.act, hshare]
    rfl
  | some share =>
    cases hnative : share.value.native? with
    | none =>
      refine absent_spec n h (fun m w => ?_) (by rintro _ _ ⟨⟩) b
      simp only [Section.act, hshare, hnative]
      rfl
    | some k =>
      have hact {τ : Type} (m : Native τ) (w : τ) :
          ((Section.beginEnding i ending).act m s).run w =
            ((.emptied, s.setShare i
              ⟨{ share.value with native? := none }, none, some (share.value, ending)⟩), w) := by
        simp only [Section.act, hshare, hnative]
        rfl
      obtain ⟨hentry, hnext⟩ := entry_of_pure n hact b
      rw [hentry, hnext]
      refine ⟨⟨nofun, nofun, nofun, nofun⟩, ?_⟩
      refine h.change hshare rfl rfl ?_ nofun fun k' hat => ?_
      · intro j hj
        show (i == j) = false
        simpa using Ne.symm hj
      · show ShareAt k' (earlier.any (·.empties i) || i == i) _
        rw [beq_self_eq_true, Bool.or_true]
        refine ⟨rfl, rfl, ?_⟩
        rintro c _ ⟨⟩
        have hopen := hat.value
        rw [hnative] at hopen
        split at hopen
        · exact nomatch hopen
        · exact ⟨rfl, hnative.trans hopen⟩

/-- Having the engine release a connection that is closed or dropped. -/
theorem finishEnding_spec (h : SharedAt earlier s) (i : Nat) (b : σ) :
    SectionLawful n earlier ((Section.finishEnding i).entry n s b) ∧
      SharedAt (earlier ++ [(Section.finishEnding i).entry n s b])
        ((Section.finishEnding i).next n s b) := by
  cases hshare : s.shares[i]? with
  | none =>
    refine absent_spec n h (fun m w => ?_) (by rintro _ _ ⟨⟩) b
    simp only [Section.act, hshare]
    rfl
  | some share =>
    cases hleaving : share.leaving? with
    | none =>
      refine absent_spec n h (fun m w => ?_) (by rintro _ _ ⟨⟩) b
      simp only [Section.act, hshare, hleaving]
      rfl
    | some leaving =>
      obtain ⟨c, ending⟩ := leaving
      have hact {τ : Type} (m : Native τ) (w : τ) :
          ((Section.finishEnding i).act m s).run w =
            ((.ended, s.setShare i { share with leaving? := none }),
              ((ending.finish m c).run w).2) := by
        simp only [Section.act, hshare, hleaving]
        rfl
      obtain ⟨k, hk, hat⟩ := h.share i share hshare
      obtain ⟨hemptied, hnative⟩ := hat.leaving c ending hleaving
      have hasks : (Section.finishEnding i).asks n s b = [.disconnect k] := by
        unfold Section.asks
        rw [hact n.asking ⟨b, []⟩]
        exact Ending.finish_asks n hnative ending b
      obtain ⟨hentry, hnext⟩ := entry_of_act n (hact n b)
      rw [hentry, hnext, hasks]
      refine ⟨⟨nofun, nofun, nofun, ?_⟩, ?_⟩
      · intro j hj
        have hij : i = j := by simpa [SectionEntry.releases] using hj
        subst hij
        exact ⟨k, hk, rfl, by simpa using hemptied⟩
      · refine h.change hshare rfl rfl (fun _ _ => rfl) ?_ fun k' hat' => ?_
        · intro j hj
          have hij : i = j := by simpa [SectionEntry.releases] using hj
          subst hij
          exact hemptied
        · show ShareAt k' (earlier.any (·.empties i) || false) _
          rw [Bool.or_false]
          exact ⟨hat'.cell, hat'.value, nofun⟩

/-- Interrupting through a handle. -/
theorem interrupt_spec (h : SharedAt earlier s) (j : Nat) (b : σ) :
    SectionLawful n earlier ((Section.interrupt j).entry n s b) ∧
      SharedAt (earlier ++ [(Section.interrupt j).entry n s b])
        ((Section.interrupt j).next n s b) := by
  cases hhandle : s.handles[j]? with
  | none =>
    refine absent_spec n h (fun m w => ?_) ?_ b
    · simp only [Section.act, hhandle]
      rfl
    · rintro _ i ⟨⟩ hi
      rw [← h.sources, List.getElem?_map, hhandle] at hi
      exact nomatch hi
  | some handle =>
    have hsource : (sourcesIn earlier)[j]? = some handle.share := by
      rw [← h.sources, List.getElem?_map, hhandle]
      rfl
    have hnumber := h.handle handle (List.mem_of_getElem? hhandle)
    have hlt : handle.share < s.shares.length := by
      rw [h.count]
      exact (List.getElem?_eq_some_iff.mp hnumber).1
    have hshare : s.shares[handle.share]? = some s.shares[handle.share] :=
      List.getElem?_eq_getElem hlt
    obtain ⟨k, hk, hat⟩ := h.share handle.share _ hshare
    have hcell : s.cellOf handle =
        if earlier.any (·.empties handle.share) then none else some k := by
      unfold Sharing.cellOf
      rw [hshare]
      exact hat.cell
    cases hemptied : earlier.any (·.empties handle.share) with
    | true =>
      -- the cell is empty: neither the engine nor the world notices anything
      rw [hemptied, if_pos rfl] at hcell
      have hact {τ : Type} (m : Native τ) (w : τ) :
          ((Section.interrupt j).act m s).run w = ((.interrupted, s), w) := by
        simp only [Section.act, hhandle, hcell]
        rfl
      obtain ⟨hentry, hnext⟩ := entry_of_pure n hact b
      rw [hentry, hnext]
      refine ⟨⟨?_, ?_, nofun, nofun⟩, h.keep rfl rfl (fun _ => rfl) fun _ => rfl⟩
      · rintro _ i ⟨⟩ hi
        cases hsource.symm.trans hi
        refine ⟨nofun, fun _ => ⟨rfl, rfl⟩, fun hnone => ?_⟩
        obtain ⟨e', hmem, he'⟩ := List.any_eq_true.mp hemptied
        exact nomatch (hnone e' hmem).symm.trans he'
      · rintro _ ⟨⟩ hi
        exact nomatch hsource.symm.trans hi
    | false =>
      rw [hemptied, if_neg Bool.false_ne_true] at hcell
      have hact {τ : Type} (m : Native τ) (w : τ) :
          ((Section.interrupt j).act m s).run w = ((.interrupted, s), ((m.interrupt k).run w).2) := by
        simp only [Section.act, hhandle, hcell]
        rfl
      have hasks : (Section.interrupt j).asks n s b = [.interrupt k] := by
        unfold Section.asks
        rw [hact n.asking ⟨b, []⟩]
        rfl
      have hnot (e' : SectionEntry σ) (hmem : e' ∈ earlier) : e'.empties handle.share = false :=
        eq_false_of_ne_true fun he' => nomatch hemptied.symm.trans (List.any_eq_true.mpr ⟨e', hmem, he'⟩)
      have hnone (e' : SectionEntry σ) (hmem : e' ∈ earlier) : e'.releases handle.share = false :=
        eq_false_of_ne_true fun he' => nomatch hemptied.symm.trans
          (h.released _ (List.any_eq_true.mpr ⟨e', hmem, he'⟩))
      obtain ⟨hentry, hnext⟩ := entry_of_act n (hact n b)
      rw [hentry, hnext, hasks]
      refine ⟨⟨?_, ?_, nofun, nofun⟩, h.keep rfl rfl (fun _ => rfl) fun _ => rfl⟩
      · rintro _ i ⟨⟩ hi
        cases hsource.symm.trans hi
        refine ⟨?_, ?_, fun _ => ⟨k, hk, rfl, rfl⟩⟩
        · intro ask hask
          exact ⟨k, hk, List.mem_singleton.mp hask, hnone⟩
        · rintro ⟨e', hmem, he' | he'⟩
          · exact nomatch (hnot e' hmem).symm.trans he'
          · exact nomatch (hnone e' hmem).symm.trans he'
      · rintro _ ⟨⟩ hi
        exact nomatch hsource.symm.trans hi

/-- Every section is as expected. -/
theorem spec (h : SharedAt earlier s) (part : Section) (b : σ) :
    SectionLawful n earlier (part.entry n s b) ∧
      SharedAt (earlier ++ [part.entry n s b]) (part.next n s b) := by
  cases part with
  | openNew how => exact openNew_spec n h how b
  | call i request => exact call_spec n h i request b
  | takeHandle i => exact takeHandle_spec n h i b
  | cloneHandle j => exact cloneHandle_spec n h j b
  | interrupt j => exact interrupt_spec n h j b
  | beginEnding i ending => exact beginEnding_spec n h i ending b
  | finishEnding i => exact finishEnding_spec n h i b

end Turn

end Section

/-! ## One thread alone -/

/-- Without other threads, a handle's section is its interruption: the cell tells whether the
connection is open, and holds the number that the handle knows. -/
theorem interrupt_alone (n : Native σ) {s : Sharing} {j : Nat} {h : SharedHandle} {b : σ}
    (hj : s.handles[j]? = some h)
    (hopen : (n.isOpen h.handle.connection).run b = ((s.cellOf h).isSome, b))
    (hnumber : ∀ k, s.cellOf h = some k → k = h.handle.connection) :
    ((Section.interrupt j).act n s).run b =
      ((.interrupted, s), ((h.handle.interrupt n).run b).2) := by
  have hrun : (h.handle.interrupt n).run b =
      (if (s.cellOf h).isSome then n.interrupt h.handle.connection else pure ()).run b := by
    unfold InterruptHandle.interrupt
    rw [run_bind, hopen]
  rw [hrun]
  cases hcell : s.cellOf h with
  | none =>
    simp only [Section.act, hj, hcell]
    rfl
  | some k =>
    rw [← hnumber k hcell]
    simp only [Section.act, hj, hcell]
    rfl

/-- Without other threads, the two halves of an ending are the ending. -/
theorem ending_alone (n : Native σ) {s : Sharing} {i : Nat} {share : Share} {k : Nat} (b : σ)
    (hshare : s.shares[i]? = some share) (hopen : share.value.native? = some k) (ending : Ending) :
    let emptied := ((Section.beginEnding i ending).act n s).run b
    (((Section.finishEnding i).act n emptied.1.2).run emptied.2).2 =
      ((ending.finish n share.value).run b).2 := by
  have hlt : i < s.shares.length := (List.getElem?_eq_some_iff.mp hshare).1
  have hbegin : ((Section.beginEnding i ending).act n s).run b =
      ((.emptied, s.setShare i
        ⟨{ share.value with native? := none }, none, some (share.value, ending)⟩), b) := by
    simp only [Section.act, hshare, hopen]
    rfl
  dsimp only
  rw [hbegin]
  have hemptied : (s.setShare i
      ⟨{ share.value with native? := none }, none, some (share.value, ending)⟩).shares[i]? =
        some ⟨{ share.value with native? := none }, none, some (share.value, ending)⟩ :=
    List.getElem?_set_self hlt
  simp only [Section.act, hemptied]
  rfl

/-! ## All sections -/

/-- All sections are as expected, given those before them. -/
theorem takeSections_spec (n : Native σ) (turns : List (SectionTurn σ)) :
    ∀ {earlier : List (SectionEntry σ)} {s : Sharing}, SharedAt earlier s → ∀ w,
      let p := ((takeSections n s turns).run w).1
      SharedAt (earlier ++ p.1) p.2 ∧
        ∀ before e after, p.1 = before ++ e :: after → SectionLawful n (earlier ++ before) e := by
  induction turns with
  | nil =>
    intro earlier s hs w
    refine ⟨?_, ?_⟩
    · show SharedAt (earlier ++ []) s
      rw [List.append_nil]
      exact hs
    · intro before e after h
      exact absurd h.symm (List.append_ne_nil_of_right_ne_nil _ (List.cons_ne_nil _ _))
  | cons t rest ih =>
    intro earlier s hs w
    let p := (t.take n s).run w
    obtain ⟨hlawful, hnext⟩ : SectionLawful n earlier p.1.1 ∧
        SharedAt (earlier ++ [p.1.1]) p.1.2 := Section.spec n hs t.part (t.meanwhile w)
    obtain ⟨hlast, hrest⟩ := ih hnext p.2
    refine ⟨?_, ?_⟩
    · rw [List.append_assoc] at hlast
      exact hlast
    · intro before e after h
      have h : p.1.1 :: ((takeSections n p.1.2 rest).run p.2).1.1 = before ++ e :: after := h
      cases before with
      | nil =>
        obtain ⟨rfl, -⟩ := List.cons.inj h
        rw [List.append_nil]
        exact hlawful
      | cons first before =>
        obtain ⟨rfl, htail⟩ := List.cons.inj h
        have hlater := hrest before e after htail
        rw [List.append_assoc] at hlater
        exact hlater

/-- Whatever is done with connections and their handles, in any order of sections and whatever else
happens in between: an interruption through a handle reaches the connection that it was taken from,
never after its release has begun, and from then on it changes nothing. -/
theorem interrupts_lawful (n : Native σ) (turns : List (SectionTurn σ)) (w : σ) :
    InterruptsLawful n ((takeSections n .empty turns).run w).1.1 :=
  (takeSections_spec n turns SharedAt.nil w).2

end HostSql
