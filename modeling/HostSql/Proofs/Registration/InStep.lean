import HostSql.Proofs.Registration.Table

/-!
# The registry, the engine's table and the past

`Watched.InStep` relates the three: under a name and an arity the registry has a record just when
the engine's table has a function, which has that record's number, and what the record keeps is what
`current` finds in the past. Records of different keys are different ones, so a declaration reaches
those of its name and no others.

> `InStep.leaves`, `InStep.registers`, `InStep.declares`: whatever happens, they stay in step.
-/

namespace HostSql

open Engine (HostFunction)

namespace Watched

variable {o : Watched} {w w' : SessionWorld} {past : List FunctionEvent}

/-- The registry and the engine's table are in step with the past. -/
structure InStep (o : Watched) (w : SessionWorld) (past : List FunctionEvent) : Prop where
  isOpen : o.IsOpen w
  connected : ∃ functions, o.table? w = some functions
  keys : ((o.registry w).map (·.1)).Nodup
  numbered : ∀ key n, (o.registry w).get? key = some n → n < w.nextId
  present : ∀ key n, (o.registry w).get? key = some n → ∃ r, w.host.records.get? n = some r
  apart : ∀ key key' n, (o.registry w).get? key = some n → (o.registry w).get? key' = some n →
    key = key'
  listed : ∀ f ∈ o.table w, ∃ arity, f.arity = arity.toInt ∧
    (o.registry w).get? (FunctionRegistry.key f.name, arity) = some f.record
  tabled : ∀ name arity n, (o.registry w).get? (name, arity) = some n →
    ∃ f ∈ o.table w, FunctionRegistry.key f.name = name ∧ f.arity = arity.toInt
  current : ∀ name arity, current name arity past =
    ((o.registry w).get? (name, arity)).bind fun n => (w.host.records.get? n).map (·.kept)

/-- Something is current just when the registry has it. -/
theorem InStep.current_isSome (h : o.InStep w past) (name : String) (arity : Int32) :
    (HostSql.current name arity past).isSome = true ↔
      ∃ n, (o.registry w).get? (name, arity) = some n := by
  rw [h.current]
  constructor
  · intro hsome
    cases hget : (o.registry w).get? (name, arity) with
    | none =>
      rw [hget] at hsome
      cases hsome
    | some n => exact ⟨n, rfl⟩
  · rintro ⟨n, hget⟩
    obtain ⟨r, hr⟩ := h.present _ n hget
    rw [hget, Option.bind_some, hr]
    rfl

/-- Something is current just when the table has a function for it. -/
theorem InStep.exists_mem (h : o.InStep w past) (name : String) (arity : Int32) :
    (∃ f ∈ o.table w, FunctionRegistry.key f.name = name ∧ f.arity = arity.toInt) ↔
      (HostSql.current name arity past).isSome = true := by
  rw [h.current_isSome]
  constructor
  · rintro ⟨f, hf, rfl, harity⟩
    obtain ⟨n, hn, hget⟩ := h.listed f hf
    cases Int32.toInt_inj.mp (hn.symm.trans harity)
    exact ⟨f.record, hget⟩
  · rintro ⟨n, hget⟩
    exact h.tabled name arity n hget

/-- A function of the table is found in the past. -/
theorem InStep.current_of_mem (h : o.InStep w past) {f : HostFunction} (hf : f ∈ o.table w) :
    ∃ arity r, f.arity = arity.toInt ∧ w.host.records.get? f.record = some r ∧
      HostSql.current (FunctionRegistry.key f.name) arity past = some r.kept := by
  obtain ⟨arity, harity, hget⟩ := h.listed f hf
  obtain ⟨r, hr⟩ := h.present _ _ hget
  refine ⟨arity, r, harity, hr, ?_⟩
  rw [h.current, hget, Option.bind_some, hr]
  rfl

/-- What changes nothing that is current leaves everything in step. -/
theorem InStep.note (h : o.InStep w past) {event : FunctionEvent}
    (hevent : ∀ name arity, HostSql.current name arity (event :: past) =
      HostSql.current name arity past) : o.InStep w (event :: past) :=
  { h with current := fun name arity => (hevent name arity).trans (h.current name arity) }

/-! ## What leaves the functions alone -/

theorem Leaves.isOpen (h : o.Leaves w w') (hopen : o.IsOpen w) : o.IsOpen w' := by
  obtain ⟨c, hc, hnative⟩ := hopen
  exact ⟨c, h.connection.trans hc, hnative⟩

theorem Leaves.registry (h : o.Leaves w w') : o.registry w' = o.registry w := by
  unfold Watched.registry
  rw [h.connection]

theorem Leaves.table (h : o.Leaves w w') : o.table w' = o.table w := by
  unfold Watched.table
  rw [h.table?]

theorem InStep.leaves (h : o.InStep w past) (hleaves : o.Leaves w w') : o.InStep w' past := by
  have hregistry := hleaves.registry
  have hrecords {key n} (hget : (o.registry w).get? key = some n) :=
    hleaves.records (key, n) (Assoc.mem_of_get? hget)
  refine {
    isOpen := hleaves.isOpen h.isOpen
    connected := ?connected
    keys := ?keys
    numbered := ?numbered
    present := ?present
    apart := ?apart
    listed := ?listed
    tabled := ?tabled
    current := ?current }
  case connected =>
    rw [hleaves.table?]
    exact h.connected
  case keys =>
    rw [hregistry]
    exact h.keys
  case numbered =>
    rw [hregistry]
    exact fun key n hget => Nat.lt_of_lt_of_le (h.numbered key n hget) hleaves.nextId
  case present =>
    rw [hregistry]
    intro key n hget
    obtain ⟨r, hr⟩ := h.present key n hget
    have hkept := hrecords hget
    rw [hr] at hkept
    obtain ⟨r', hr', -⟩ := Option.map_eq_some_iff.mp hkept
    exact ⟨r', hr'⟩
  case apart =>
    rw [hregistry]
    exact h.apart
  case listed =>
    rw [hregistry, hleaves.table]
    exact h.listed
  case tabled =>
    rw [hregistry, hleaves.table]
    exact h.tabled
  case current =>
    intro name arity
    rw [h.current, hregistry]
    cases hget : (o.registry w).get? (name, arity) with
    | none => rfl
    | some n => exact (hrecords hget).symm

/-! ## Registrations -/

/-- A function replaces those of its folded name and its arity. -/
theorem replaces_iff (name : String) (arity : Int32) (callbacks : Callbacks) (record : Nat)
    (g : HostFunction) :
    (registeredAs name arity callbacks record).replaces g = true ↔
      FunctionRegistry.key g.name = FunctionRegistry.key name ∧ g.arity = arity.toInt := by
  unfold HostFunction.replaces Text.sameName registeredAs FunctionRegistry.key
  rw [Bool.and_eq_true, beq_iff_eq, beq_iff_eq]
  exact ⟨fun h => ⟨h.1.symm, h.2.symm⟩, fun h => ⟨h.1.symm, h.2.symm⟩⟩

/-- What a registration takes the place of, as the past tells it. -/
theorem InStep.takesPlace_iff (h : o.InStep w past) (name : String) (arity : Int32)
    (callbacks : Callbacks) (record : Nat) :
    (registeredAs name arity callbacks record).takesPlace (o.table w) = true ↔
      takesPlace name arity past := by
  have htaken : (o.table w).any (fun g => (registeredAs name arity callbacks record).replaces g) =
      (HostSql.current (FunctionRegistry.key name) arity past).isSome := by
    rw [Bool.eq_iff_iff, ← h.exists_mem, List.any_eq_true]
    simp only [replaces_iff]
  have hhidden : (o.table w).any (fun g => Text.sameName g.name name && g.arity == -1) =
      (HostSql.current (FunctionRegistry.key name) (-1) past).isSome := by
    rw [Bool.eq_iff_iff, ← h.exists_mem, List.any_eq_true]
    simp only [Text.sameName, Bool.and_eq_true, beq_iff_eq]
    rfl
  have hbuiltin : Engine.isBuiltin (registeredAs name arity callbacks record) =
      Engine.isBuiltin ⟨name, arity.toInt, false, 0⟩ := rfl
  unfold Engine.HostFunction.takesPlace takesPlace
  rw [Bool.or_eq_true, Bool.and_eq_true, Bool.not_eq_true', hbuiltin, htaken]
  exact or_congr Iff.rfl (and_congr_left fun _ => hhidden ▸ Iff.rfl)

/-- A registration succeeds just when it is possible and takes no place in use. -/
theorem InStep.accepts_iff (h : o.InStep w past) (name : String) (arity : Int32)
    (callbacks : Callbacks) :
    o.Accepts name arity callbacks w ↔
      registrable name arity ∧ (w.isActive o.number = true → ¬takesPlace name arity past) := by
  obtain ⟨functions, hfunctions⟩ := h.connected
  obtain ⟨conn, hconn, hconnFunctions⟩ := Option.map_eq_some_iff.mp hfunctions
  have htable : o.table w = conn.functions := by
    unfold table
    rw [hfunctions, hconnFunctions]
    rfl
  have hplace := h.takesPlace_iff name arity callbacks w.nextId
  rw [htable] at hplace
  constructor
  · rintro ⟨hnul, hleast, hmost, hshort, conn', hconn', hfree⟩
    cases hconn.symm.trans hconn'
    refine ⟨⟨hnul, hleast, hmost, hshort⟩, fun hactive htaken => ?_⟩
    exact Bool.eq_false_iff.mp (hfree hactive) (hplace.mpr htaken)
  · rintro ⟨⟨hnul, hleast, hmost, hshort⟩, hfree⟩
    refine ⟨hnul, hleast, hmost, hshort, conn, hconn, fun hactive => ?_⟩
    exact Bool.eq_false_iff.mpr fun htaken => hfree hactive (hplace.mp htaken)

/-- On an active connection a registration that succeeds replaces nothing. -/
theorem InStep.free (h : o.InStep w past) {name : String} {arity : Int32} {callbacks : Callbacks}
    (hregisters : o.Registers name arity callbacks w w') (hactive : w.isActive o.number = true)
    {g : HostFunction} (hg : g ∈ o.table w) :
    (registeredAs name arity callbacks w.nextId).replaces g = false := by
  obtain ⟨-, hfree⟩ := (h.accepts_iff name arity callbacks).mp hregisters.accepts
  rw [Bool.eq_false_iff]
  intro htaken
  refine hfree hactive (.inl ((h.exists_mem _ _).mp ⟨g, hg, ?_⟩))
  exact (replaces_iff name arity callbacks w.nextId g).mp htaken

/-- A registration puts its function at the end of the table, and what it replaces is gone. -/
theorem InStep.table_of_registers (h : o.InStep w past) {name : String} {arity : Int32}
    {callbacks : Callbacks} (hregisters : o.Registers name arity callbacks w w') :
    o.table w' = (o.table w).filter
      (fun g => !(registeredAs name arity callbacks w.nextId).replaces g) ++
        [registeredAs name arity callbacks w.nextId] := by
  obtain ⟨functions, hfunctions⟩ := h.connected
  unfold table
  rw [hregisters.table?, hfunctions]
  rfl

/-- What a registration does not replace stays in the table. -/
theorem InStep.mem_of_registers (h : o.InStep w past) {name : String} {arity : Int32}
    {callbacks : Callbacks} (hregisters : o.Registers name arity callbacks w w') {g : HostFunction}
    (hg : g ∈ o.table w)
    (hkept : (registeredAs name arity callbacks w.nextId).replaces g = false) :
    g ∈ o.table w' := by
  rw [h.table_of_registers hregisters]
  exact List.mem_append_left _ (List.mem_filter.mpr ⟨hg, by rw [hkept]; rfl⟩)

theorem InStep.registers (h : o.InStep w past) {name : String} {arity : Int32}
    {callbacks : Callbacks} (inUse : Bool) (hregisters : o.Registers name arity callbacks w w') :
    o.InStep w' (.registered name arity callbacks inUse (.ok ()) :: past) := by
  have hself : (o.registry w').get? (FunctionRegistry.key name, arity) = some w.nextId := by
    rw [hregisters.registry]
    exact Assoc.get?_set_self _ _ _
  have hother {key} (hne : (FunctionRegistry.key name, arity) ≠ key) :
      (o.registry w').get? key = (o.registry w).get? key := by
    rw [hregisters.registry]
    exact Assoc.get?_set_ne _ hne _
  have hold {key n} (hne : (FunctionRegistry.key name, arity) ≠ key)
      (hget : (o.registry w').get? key = some n) : (o.registry w).get? key = some n :=
    (hother hne).symm.trans hget
  have hrecord {key n} (hget : (o.registry w).get? key = some n) :
      w'.host.records.get? n = w.host.records.get? n := by
    rw [hregisters.records]
    exact Assoc.get?_set_ne _ (Nat.ne_of_gt (h.numbered key n hget)) _
  have hnew : w'.host.records.get? w.nextId = some (.new name arity callbacks) := by
    rw [hregisters.records]
    exact Assoc.get?_set_self _ _ _
  have htable := h.table_of_registers hregisters
  refine {
    isOpen := hregisters.isOpen
    connected := ?connected
    keys := ?keys
    numbered := ?numbered
    present := ?present
    apart := ?apart
    listed := ?listed
    tabled := ?tabled
    current := ?current }
  case connected =>
    obtain ⟨functions, hfunctions⟩ := h.connected
    rw [hregisters.table?, hfunctions]
    exact ⟨_, rfl⟩
  case keys =>
    rw [hregisters.registry]
    exact Assoc.nodup_set h.keys _ _
  case numbered =>
    intro key n hget
    rw [hregisters.nextId]
    by_cases hkey : (FunctionRegistry.key name, arity) = key
    · rw [← hkey, hself] at hget
      cases hget
      exact Nat.lt_succ_self _
    · exact Nat.lt_succ_of_lt (h.numbered key n (hold hkey hget))
  case present =>
    intro key n hget
    by_cases hkey : (FunctionRegistry.key name, arity) = key
    · rw [← hkey, hself] at hget
      cases hget
      exact ⟨_, hnew⟩
    · obtain ⟨r, hr⟩ := h.present key n (hold hkey hget)
      exact ⟨r, (hrecord (hold hkey hget)).trans hr⟩
  case apart =>
    -- the number of the new record is not that of an old one
    have hfresh {key n} (hne : (FunctionRegistry.key name, arity) ≠ key)
        (hget : (o.registry w').get? key = some n) : n ≠ w.nextId :=
      Nat.ne_of_lt (h.numbered key n (hold hne hget))
    intro key key' n hget hget'
    by_cases hkey : (FunctionRegistry.key name, arity) = key
    · by_cases hkey' : (FunctionRegistry.key name, arity) = key'
      · exact hkey.symm.trans hkey'
      · rw [← hkey, hself] at hget
        exact absurd (Option.some.inj hget).symm (hfresh hkey' hget')
    · by_cases hkey' : (FunctionRegistry.key name, arity) = key'
      · rw [← hkey', hself] at hget'
        exact absurd (Option.some.inj hget').symm (hfresh hkey hget)
      · exact h.apart key key' n (hold hkey hget) (hold hkey' hget')
  case listed =>
    rw [htable]
    intro f hf
    rcases List.mem_append.mp hf with hf | hf
    · obtain ⟨hf, hkeeps⟩ := List.mem_filter.mp hf
      obtain ⟨n, hn, hget⟩ := h.listed f hf
      refine ⟨n, hn, (hother fun hkey => ?_).trans hget⟩
      obtain ⟨hname, rfl⟩ := Prod.mk.inj hkey
      rw [(replaces_iff name arity callbacks w.nextId f).mpr ⟨hname.symm, hn⟩] at hkeeps
      cases hkeeps
    · rw [List.mem_singleton.mp hf]
      exact ⟨arity, rfl, hself⟩
  case tabled =>
    rw [htable]
    intro folded n record hget
    by_cases hkey : (FunctionRegistry.key name, arity) = (folded, n)
    · obtain ⟨rfl, rfl⟩ := Prod.mk.inj hkey
      exact ⟨_, List.mem_append_right _ (List.mem_singleton_self _), rfl, rfl⟩
    · obtain ⟨f, hf, hname, hn⟩ := h.tabled folded n record (hold hkey hget)
      refine ⟨f, List.mem_append_left _ (List.mem_filter.mpr ⟨hf, ?_⟩), hname, hn⟩
      rw [Bool.not_eq_true', Bool.eq_false_iff]
      intro htaken
      obtain ⟨hname', hn'⟩ := (replaces_iff name arity callbacks w.nextId f).mp htaken
      exact hkey (Prod.ext (hname'.symm.trans hname) (Int32.toInt_inj.mp (hn'.symm.trans hn)))
  case current =>
    intro folded n
    show (if FunctionRegistry.key name = folded ∧ arity = n then some (callbacks, .args)
      else HostSql.current folded n past) = _
    by_cases hkey : (FunctionRegistry.key name, arity) = (folded, n)
    · rw [if_pos (Prod.mk.inj hkey), ← hkey, hself, Option.bind_some, hnew]
      rfl
    · rw [if_neg fun heq => hkey (Prod.ext heq.1 heq.2), hother hkey, h.current]
      cases hget : (o.registry w).get? (folded, n) with
      | none => rfl
      | some record =>
        rw [Option.bind_some, Option.bind_some, hrecord hget]

/-! ## Declarations -/

/-- A record is among those of a name just when its key has that name. -/
theorem InStep.mem_named (h : o.InStep w past) {folded : String} {arity : Int32} {n : Nat}
    (hget : (o.registry w).get? (folded, arity) = some n) (name : String) :
    n ∈ (o.registry w).named name ↔ FunctionRegistry.key name = folded := by
  unfold FunctionRegistry.named
  rw [List.mem_map]
  constructor
  · rintro ⟨⟨key, record⟩, hmem, rfl⟩
    obtain ⟨hmem, hname⟩ := List.mem_filter.mp hmem
    have hkey := h.apart key (folded, arity) record (Assoc.get?_of_mem h.keys hmem) hget
    rw [hkey] at hname
    exact (beq_iff_eq.mp hname).symm
  · intro hname
    exact ⟨_, List.mem_filter.mpr ⟨Assoc.mem_of_get? hget, beq_iff_eq.mpr hname.symm⟩, rfl⟩

/-- There are records of a name just when something is current under it. -/
theorem InStep.named_ne_nil (h : o.InStep w past) (name : String) :
    (o.registry w).named name ≠ [] ↔
      ∃ arity, (HostSql.current (FunctionRegistry.key name) arity past).isSome = true := by
  constructor
  · intro hne
    obtain ⟨n, hn⟩ := List.exists_mem_of_ne_nil _ hne
    unfold FunctionRegistry.named at hn
    obtain ⟨⟨⟨folded, arity⟩, record⟩, hmem, -⟩ := List.mem_map.mp hn
    obtain ⟨hmem, hname⟩ := List.mem_filter.mp hmem
    cases beq_iff_eq.mp hname
    exact ⟨arity, (h.current_isSome _ _).mpr ⟨record, Assoc.get?_of_mem h.keys hmem⟩⟩
  · rintro ⟨arity, hsome⟩
    obtain ⟨n, hget⟩ := (h.current_isSome _ _).mp hsome
    exact List.ne_nil_of_mem ((h.mem_named hget name).mpr rfl)

theorem InStep.declares (h : o.InStep w past) (name : String) (type : ResultType)
    {records : Assoc Nat FunctionRecord}
    (htyped : Typed ((o.registry w).named name) type w.host.records records) :
    o.InStep { w with host := { w.host with records } } (.declared name type (.ok ()) :: past) := by
  refine { h with present := fun key n hget => ?_, current := fun folded arity => ?_ }
  · obtain ⟨r, hr⟩ := h.present key n hget
    show ∃ r, records.get? n = some r
    rw [htyped n, hr]
    split <;> exact ⟨_, rfl⟩
  · show (HostSql.current folded arity past).map _ =
      ((o.registry w).get? (folded, arity)).bind fun n => (records.get? n).map (·.kept)
    rw [h.current]
    cases hget : (o.registry w).get? (folded, arity) with
    | none => rfl
    | some n =>
      obtain ⟨r, hr⟩ := h.present _ n hget
      rw [Option.bind_some, Option.bind_some, htyped n, hr]
      by_cases hname : FunctionRegistry.key name = folded
      · rw [if_pos ((h.mem_named hget name).mpr hname)]
        simp only [Option.map_some, FunctionRecord.kept, if_pos hname]
      · rw [if_neg fun hmem => hname ((h.mem_named hget name).mp hmem)]
        simp only [Option.map_some, FunctionRecord.kept, if_neg hname]

end Watched

end HostSql
