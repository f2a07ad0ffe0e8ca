import HostSql.Engine.RowChange
import HostSql.Engine.TableChange
import HostSql.Proofs.Matching.Locking

/-!
# Rows and tables are changed alike

Related changes settle the same rows, clash with the same rivals and break the same rules, so they have
the same count and the same failure: `applyRowChange_linked`, `applyTableChange_linked`.
-/

namespace HostSql.Engine

variable {H H' : Type} {M : Matching} {G : H → H' → Prop}

/-! ## One row -/

/-- Rows are filled alike and lack the same values. -/
theorem fillMissing_same {same : Nat → Nat → Prop} {t t' : Target} (ht : t.Same same t') (row : Row) :
    fillMissing t row = fillMissing t' row := by
  cases ht with
  | mk table _ hds conflict =>
    have hcells := forall₂_zipIdx
      (forall₂_zip (forall₂_eq row) (forall₂_zip (forall₂_eq table.columns) hds)) 0
    unfold fillMissing
    dsimp only
    rw [forall₂_map_eq hcells]
    rintro ⟨⟨d, column, t⟩, i⟩ ⟨⟨d', column', t'⟩, i'⟩ ⟨⟨heq, heq', hterm⟩, heq''⟩
    cases heq
    cases heq'
    cases heq''
    dsimp only
    cases d with
    | null =>
      cases column.notNull with
      | none => rfl
      | some own =>
        -- of a default only a value is looked at, which has no number in it
        dsimp only
        cases conflict.getD own <;> cases hterm <;> rfl
    | _ => rfl

section Rows

variable {scope : Scope H} {scope' : Scope H'} (h : scope.Linked M G scope')
  (hs : M.Same scope.statement scope'.statement)

include h

theorem rowNumber_linked (t : Table) (given : Datum) :
    LinkedRun (Matched M G) Eq (rowNumber scope t given) (rowNumber scope' t given) := by
  unfold rowNumber
  cases Affinity.apply .integer given with
  | integer n => exact .same _
  | null =>
    refine (currentDatabase_linked h.connection).bind_same fun db => ?_
    cases Database.freshNumber? (db.rows t.root) with
    | some n => exact .same _
    | none => exact .throw _
  | _ => exact .throw _

theorem firstFalse_linked (row : Row) {checks checks' : List (String × Term)}
    (hchecks : List.Forall₂ (SameCheck M.Same) checks checks') :
    LinkedRun (Matched M G) Eq (firstFalse scope row checks) (firstFalse scope' row checks') := by
  induction hchecks with
  | nil => exact .same none
  | @cons c c' _ _ hcheck _ ih =>
    obtain ⟨label, t⟩ := c
    obtain ⟨label', t'⟩ := c'
    obtain ⟨hlabel, hterm⟩ := hcheck
    cases hlabel
    unfold firstFalse
    exact (Term.eval_linked h row _ hterm).bind_same fun d => .ite (.same _) ih

theorem clear_linked {t t' : Target} (ht : t.Same M.Same t') (n : Int64) (row : Row)
    (own : Option Int64) {erase : Int64 → Run H Unit} {erase' : Int64 → Run H' Unit}
    (herase : ∀ m, LinkedRun (Matched M G) Eq (erase m) (erase' m)) (keys : List UniqueKey) :
    LinkedRun (Matched M G) Eq (makeRoom.clear scope t n row own t.table erase keys)
      (makeRoom.clear scope' t' n row own t'.table erase' keys) := by
  cases ht with
  | mk table _ _ conflict =>
    induction keys with
    | nil => exact .same false
    | cons key rest ih =>
      unfold makeRoom.clear
      refine (currentDatabase_linked h.connection).bind_same fun db => ?_
      dsimp only
      split
      · exact ih
      · cases conflict.getD (key.conflict.getD .abort) with
        | ignore => exact .same true
        | replace => exact (herase _).bind_same fun _ => ih
        | _ => exact .throw _

/-- Rivals are dealt with alike. -/
theorem makeRoom_linked {t t' : Target} (ht : t.Same M.Same t') (n : Int64) (row : Row)
    (own : Option Int64) (mayClash : Bool) :
    LinkedRun (Matched M G) Eq (makeRoom scope t n row own mayClash)
      (makeRoom scope' t' n row own mayClash) := by
  have herase (root : Nat) (m : Int64) : LinkedRun (Matched M G) Eq
      (writeDatabase (H := H) scope.connection (·.erase root m))
      (writeDatabase (H := H') scope'.connection (·.erase root m)) :=
    writeDatabase_linked h.connection _
  have hclear := clear_linked h ht n row own (herase t.table.root) t.table.uniques
  cases ht with
  | mk table _ _ conflict =>
    unfold makeRoom
    dsimp only at hclear ⊢
    refine (currentDatabase_linked h.connection).bind_same fun db => .ite ?_ hclear
    cases conflict.getD (table.numberConflict.getD .abort) with
    | ignore => exact .same true
    | replace => exact (herase _ _).bind_same fun _ => hclear
    | _ => exact (LinkedRun.throw (A := @Eq PUnit) _).bind_same fun _ => hclear

include hs

/-- A row is stored, left out or refused alike. -/
theorem settle_linked {t t' : Target} (ht : t.Same M.Same t') (n : Int64) (mayClash : Bool)
    (own : Option Int64) (row : Row) :
    LinkedRun (Matched M G) Eq (settle scope t n mayClash own row)
      (settle scope' t' n mayClash own row) := by
  have hroom (row : Row) := makeRoom_linked h ht n row own mayClash
  have hfilled := fillMissing_same ht row
  cases ht with
  | mk table hcs _ conflict =>
    unfold settle
    rw [hfilled]
    generalize fillMissing _ row = filled
    obtain ⟨row, missing⟩ := filled
    dsimp only at hroom ⊢
    cases missing with
    | some rule =>
      obtain ⟨policy, message⟩ := rule
      cases policy with
      | ignore => exact .same _
      | _ => exact .throw _
    | none =>
      refine (firstFalse_linked h _ hcs).bind_same fun label? => ?_
      cases label? with
      | some label =>
        dsimp only
        cases conflict.getD .abort with
        | ignore => exact .same _
        | _ => exact .throw _
      | none =>
        refine (hroom _).bind_same fun leftOut => .ite (.same _) ?_
        exact (checkTripped_linked hs).bind_same fun _ =>
          (writeDatabase_linked h.connection _).bind_same fun _ => .same _

end Rows

/-! ## All rows -/

section Changes

variable {scope : Scope H} {scope' : Scope H'} (h : scope.Linked M G scope')
  (hs : M.Same scope.statement scope'.statement)

include h hs

/-- The same rows are inserted, up to the same failure. -/
theorem insertRows_linked {t t' : Target} (ht : t.Same M.Same t') {columns columns' : List Term}
    (hcolumns : List.Forall₂ (Term.Same M.Same) columns columns') {number number' : Option Term}
    (hnumber : Option.Rel (Term.Same M.Same) number number') (left count : Nat) {c c' : Cursor}
    (hc : c.Same M.Same c') :
    Linked (Matched M G) Eq (insertRows scope t columns number left count c)
      (insertRows scope' t' columns' number' left count c') := by
  induction left generalizing count c c' with
  | zero => exact .same _
  | succ left ih =>
    -- the row of the source, as it is settled
    have hsettled {d d' : Cursor} (hd : d.Same M.Same d') (row : Row) (given : Datum) :
        LinkedRun (Matched M G) (Option.Rel fun p p' => p.1 = p'.1 ∧ p.2.Same M.Same p'.2)
          (rowNumber scope t.table given >>= fun r =>
            settle scope t r.1 r.2 none row >>= fun settled => Pure.pure (some (settled, d)))
          (rowNumber scope' t'.table given >>= fun r =>
            settle scope' t' r.1 r.2 none row >>= fun settled => Pure.pure (some (settled, d'))) := by
      have htable : t.table = t'.table := by
        cases ht
        rfl
      rw [htable]
      exact (rowNumber_linked h _ _).bind_same fun r =>
        (settle_linked h hs ht _ _ none row).bind_same fun settled => .pure (.some ⟨rfl, hd⟩)
    unfold insertRows
    refine Linked.bind (A := EndAlike (Option.Rel fun p p' => p.1 = p'.1 ∧ p.2.Same M.Same p'.2)) ?_
      fun stored stored' hstored => ?_
    · refine LinkedRun.bind (Cursor.next_linked h hs fuel hc) fun x x' hx => ?_
      cases hx with
      | none => exact .pure .none
      | @some p p' hrow =>
        obtain ⟨r, d⟩ := p
        obtain ⟨r', d'⟩ := p'
        obtain ⟨hr, hd⟩ := hrow
        cases hr
        refine (Term.evalAll_linked h r _ hcolumns).bind_same fun row => ?_
        cases hnumber with
        | none => exact (LinkedRun.same _).bind_same (hsettled hd row)
        | some hterm => exact (Term.eval_linked h r _ hterm).bind_same (hsettled hd row)
    · cases hstored with
      | error fault => exact .same _
      | ok hstored =>
        cases hstored with
        | none => exact .same _
        | @some p p' hp =>
          obtain ⟨settled, d⟩ := p
          obtain ⟨settled', d'⟩ := p'
          obtain ⟨heq, hd⟩ := hp
          cases heq
          cases settled with
          | leftOut => exact ih count hd
          | stored n =>
            exact (changeConnection_linked h.connection fun _ _ _ => rfl).bind_same fun _ =>
              ih (count + 1) hd

/-- The same rows meet related conditions. -/
theorem matchingRows_linked (t : Table) {condition condition' : Option Term}
    (hcondition : Option.Rel (Term.Same M.Same) condition condition') :
    LinkedRun (Matched M G) Eq (matchingRows scope t condition)
      (matchingRows scope' t condition') := by
  have hsource : Plan.Same M.Same (.loop (.scan t.root t.width)) (.loop (.scan t.root t.width)) :=
    .loop (.scan _ _)
  unfold matchingRows
  cases hcondition with
  | none => exact (Cursor.drain_linked h hs fuel (.idle hsource)).bind_same fun rows => .same _
  | some hterm =>
    exact (Cursor.drain_linked h hs fuel (.idle (.filter hterm hsource))).bind_same fun rows => .same _

theorem updateRow_linked {t t' : Target} (ht : t.Same M.Same t') {sets sets' : List (Nat × Term)}
    (hsets : List.Forall₂ (SameSet M.Same) sets sets') {number number' : Option Term}
    (hnumber : Option.Rel (Term.Same M.Same) number number') (n : Int64) :
    LinkedRun (Matched M G) Eq (updateRow scope t sets number n)
      (updateRow scope' t' sets' number' n) := by
  have htable : t.table = t'.table := by
    cases ht
    rfl
  have hfound (i : Nat) := forall₂_find? (p := (·.1 == i)) (q := (·.1 == i)) hsets
    fun s s' hs => congrArg (· == i) hs.1
  unfold updateRow
  dsimp only
  rw [htable]
  refine (currentDatabase_linked h.connection).bind_same fun db => ?_
  split
  · exact .same _
  next old _ =>
    refine LinkedRun.bind_same ((LinkedRun.mapM (A := Eq) (B := Eq) (fun i j hij => ?_)
      (forall₂_eq _)).mono fun a b hab => List.forall₂_eq_eq_eq ▸ hab) fun row => ?_
    · subst hij
      have hset := hfound i
      revert hset
      generalize sets.find? _ = x
      generalize sets'.find? _ = y
      intro hset
      cases hset with
      | none => exact .same _
      | some hset => exact Term.eval_linked h _ _ hset.2
    have hstore (m : Int64) := settle_linked h hs ht m true (some n) row
    cases hnumber with
    | none => exact (LinkedRun.same _).bind_same hstore
    | some hterm =>
      refine (Term.eval_linked h _ _ hterm).bind_same fun d => ?_
      split
      · exact (LinkedRun.same _).bind_same hstore
      · exact (LinkedRun.throw (A := Eq) _).bind_same hstore

omit h hs in
theorem eachRow_linked {change : Int64 → Run H Settled} {change' : Int64 → Run H' Settled}
    (hchange : ∀ n, LinkedRun (Matched M G) Eq (change n) (change' n)) (count : Nat)
    (ns : List Int64) :
    Linked (Matched M G) Eq (eachRow change count ns) (eachRow change' count ns) := by
  induction ns generalizing count with
  | nil => exact .same _
  | cons n rest ih =>
    unfold eachRow
    refine Linked.bind (hchange n) fun result result' hresult => ?_
    cases hresult with
    | error fault => exact .same _
    | @ok settled _ heq =>
      cases heq
      cases settled with
      | leftOut => exact ih count
      | stored m => exact ih (count + 1)

/-- Related changes of rows count the same rows and fail alike. -/
theorem applyRowChange_linked {t t' : Target} (ht : t.Same M.Same t') {change change' : RowChange}
    (hchange : change.Same M.Same change') :
    Linked (Matched M G) Eq (applyRowChange scope t change) (applyRowChange scope' t' change') := by
  have htable : t.table = t'.table := by
    cases ht
    rfl
  cases hchange with
  | insert hp hcs hn => exact insertRows_linked h hs ht hcs hn fuel 0 (.idle hp)
  | update hss hn hc =>
    unfold applyRowChange
    dsimp only
    rw [htable]
    refine Linked.bind (matchingRows_linked h hs _ hc) fun found found' hfound => ?_
    cases hfound with
    | error fault => exact .same _
    | ok heq =>
      cases heq
      exact eachRow_linked (updateRow_linked h hs ht hss hn) 0 _
  | delete hc =>
    unfold applyRowChange
    dsimp only
    rw [htable]
    refine Linked.bind (matchingRows_linked h hs _ hc) fun found found' hfound => ?_
    cases hfound with
    | error fault => exact .same _
    | ok heq =>
      cases heq
      refine eachRow_linked (fun n => ?_) 0 _
      exact (checkTripped_linked hs).bind_same fun _ =>
        (writeDatabase_linked h.connection _).bind_same fun _ => .same _

end Changes

/-! ## Tables -/

section Tables

variable {scope : Scope H} {scope' : Scope H'} (h : scope.Linked M G scope')
  (hs : M.Same scope.statement scope'.statement)

include h

theorem editTables_linked (edit : Database → Database) :
    LinkedRun (Matched M G) Eq (editTables scope edit) (editTables scope' edit) := by
  unfold editTables
  refine (writeDatabase_linked h.connection _).bind_same fun _ =>
    (LinkedRun.lift (changeConnection_linked h.connection fun _ _ _ => rfl)).bind_same fun _ =>
      (currentDatabase_linked h.connection).bind_same fun db => ?_
  cases Catalog.read db with
  | ok catalog => exact .lift (changeConnection_linked h.connection fun _ _ _ => rfl)
  | error message => exact .throw _

include hs

/-- Tables are changed alike. -/
theorem applyTableChange_linked (change : TableChange) :
    LinkedRun (Matched M G) Eq (applyTableChange scope change) (applyTableChange scope' change) := by
  unfold applyTableChange
  cases change with
  | create name d text => exact editTables_linked h _
  | drop t =>
    refine (LinkedRun.lift (otherUsers_linked h.apart h.connection hs)).bind fun others others' hothers => ?_
    rw [forall₂_isEmpty hothers]
    exact .guard _ (editTables_linked h _)
  | redefine t newName text columns => exact editTables_linked h _

end Tables

end HostSql.Engine
