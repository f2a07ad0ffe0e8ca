import HostSql.Engine.Connect
import HostSql.Proofs.Matching.Stepping

/-!
# Connections are opened, closed and used alike

Where files are matched, both worlds find the same ones, since neither rest has any; where they are not,
only private memory is opened. So related connections come out of it: `connect_linked`. A function takes
the place of another alike, for names and arities are the same: `register_linked`.
-/

namespace HostSql.Engine

variable {H H' : Type} {M : Matching} {G : H → H' → Prop} {k l : Nat}

/-! ## Opening -/

/-- Volumes of the same path and content are added under numbers that stand for each other. -/
theorem addVolume_linked {n n' : Nat} (hn : M.Same n n') {v : Volume} (hv : v.path.isSome → M.files) :
    Linked (Matched M G) Eq
      (modify fun w : World H => { w with volumes := Assoc.set w.volumes n v })
      (modify fun w : World H' => { w with volumes := Assoc.set w.volumes n' v }) :=
  .change fun _ _ hw => { hw with volumes := hw.volumes.set M.oneToOne hn ⟨rfl, hv⟩ }

/-- Connections that have just been opened. -/
theorem addConnection_linked {n n' v v' : Nat} (hn : M.Same n n') (hv : M.Same v v')
    (readOnly : Bool) :
    Linked (Matched M G) Eq
      (modify fun w : World H =>
        { w with connections := Assoc.set w.connections n (.opened v readOnly) })
      (modify fun w : World H' =>
        { w with connections := Assoc.set w.connections n' (.opened v' readOnly) }) :=
  .change fun _ _ hw =>
    { hw with connections := hw.connections.set M.oneToOne hn (.mk (.opened v readOnly) hv .nil) }

/-- The file of a path is the same one in both worlds. -/
theorem findFile_same (hapart : M.Apart) (hfiles : M.files) {w : World H} {w' : World H'}
    (hw : Matched M G w w') (file : String) :
    Option.Rel (fun e e' => M.Same e.1 e'.1 ∧ M.SameVolume e.2 e'.2)
      (w.volumes.find? fun v => v.2.path == some file)
      (w'.volumes.find? fun v => v.2.path == some file) := by
  refine hw.volumes.find? (fun n n' v v' _ hv => ?_) (fun e he => ?_) fun e he => ?_
  · rw [hv.1]
  · rw [hapart.path hfiles e he]
    rfl
  · rw [hapart.path' hfiles e he]
    rfl

theorem fileVolume_linked (hapart : M.Apart) (hfiles : M.files) (file : String)
    (flags : OpenFlags) :
    LinkedRun (Matched M G) M.Same (fileVolume file flags) (fileVolume file flags) := by
  unfold fileVolume
  refine .get_bind fun w w' hw => ?_
  have hfound := findFile_same hapart hfiles hw file
  revert hfound
  generalize w.volumes.find? _ = x
  generalize w'.volumes.find? _ = y
  intro hfound
  cases hfound with
  | some hvolume => exact .pure hvolume.1
  | none =>
    refine .ite ((LinkedRun.lift fresh_linked).bind fun n n' hn => ?_) (.throw _)
    exact (LinkedRun.lift (addVolume_linked hn fun _ => hfiles)).bind_same fun _ => .pure hn

/-- A path that may be opened: any if files are matched, and one to private memory otherwise. -/
def MayOpen (files : Prop) (path : String) (flags : OpenFlags) : Prop :=
  files ∨ ∀ place, Location.ofPath path flags = .ok place → place.file = none

/-- Connections are opened under numbers that stand for each other, or for the same reason not. -/
theorem connect_linked (hapart : M.Apart) {path : String} {flags : OpenFlags}
    (hopen : MayOpen M.files path flags) :
    LinkedRun (Matched M G) M.Same (connect path flags) (connect path flags) := by
  unfold connect
  unfold MayOpen at hopen
  revert hopen
  generalize Location.ofPath path flags = place?
  intro hopen
  cases place? with
  | error fault => exact .throw fault
  | ok place =>
    -- what is done once there is a volume
    have hconnect {v v' : Nat} (hv : M.Same v v') : LinkedRun (Matched M G) M.Same
        (do
          let n ← World.fresh (H := H)
          modify fun w : World H => { w with
            connections := Assoc.set w.connections n (.opened v (place.flags.contains .readOnly)) }
          return n)
        (do
          let n ← World.fresh (H := H')
          modify fun w : World H' => { w with
            connections := Assoc.set w.connections n (.opened v' (place.flags.contains .readOnly)) }
          return n) :=
      (LinkedRun.lift fresh_linked).bind fun n n' hn =>
        (LinkedRun.lift (addConnection_linked hn hv _)).bind_same fun _ => .pure hn
    refine LinkedRun.bind (A := fun p p' => place = p ∧ place = p') (.pure ⟨rfl, rfl⟩) ?_
    rintro _ _ ⟨rfl, rfl⟩
    replace hopen : M.files ∨ place.file = none := hopen.imp_right fun h => h place rfl
    revert hopen
    dsimp only
    cases place.file with
    | some file =>
      intro hopen
      have hfiles : M.files := hopen.resolve_right nofun
      exact (fileVolume_linked hapart hfiles file _).bind fun v v' hv => hconnect hv
    | none =>
      intro _
      exact (LinkedRun.lift fresh_linked).bind fun n n' hn =>
        (LinkedRun.lift (addVolume_linked hn fun h => Bool.noConfusion h)).bind_same fun _ =>
          (LinkedRun.pure hn).bind fun v v' hv => hconnect hv

/-- A connection that leads nowhere. -/
theorem connectNowhere_linked :
    Linked (Matched M G) M.Same (connectNowhere (H := H)) (connectNowhere (H := H')) :=
  fresh_linked.bind fun _ _ hn => (addConnection_linked hn hn false).bind_same fun _ => .pure hn

/-! ## Closing -/

/-- Matched connections go with their statements and their private memory. -/
theorem disconnect_linked (hapart : M.Apart) (h : M.Same k l) :
    Linked (Matched M G) Eq (disconnect k) (disconnect l) := by
  refine .change fun w w' hw => ?_
  have hfound := hw.connections.get? M.oneToOne h
  revert hfound
  generalize w.connections.get? k = x
  generalize w'.connections.get? l = y
  intro hfound
  cases hfound with
  | none => exact hw
  | some hc =>
    cases hc with
    | @mk c v v' _ _ hv _ =>
      have hprivate : (w.volumes.get? v).map (·.path.isNone)
          = (w'.volumes.get? v').map (·.path.isNone) := by
        have hvolume := hw.volumes.get? M.oneToOne hv
        revert hvolume
        generalize w.volumes.get? v = x
        generalize w'.volumes.get? v' = y
        intro hvolume
        cases hvolume with
        | none => rfl
        | some heq => rw [heq.1]
      have hvolumes : Aligned M.Same M.SameVolume M.rest.volumes M.rest'.volumes
          (if ((w'.volumes.get? v').map (·.path.isNone)).getD false then Assoc.erase w.volumes v
            else w.volumes)
          (if ((w'.volumes.get? v').map (·.path.isNone)).getD false then Assoc.erase w'.volumes v'
            else w'.volumes) := by
        split
        · exact hw.volumes.erase M.oneToOne hv
        · exact hw.volumes
      have hstatements : Aligned M.Same (Statement.Same M.Same) M.rest.statements
          M.rest'.statements (w.statements.filter fun s => s.2.connection != k)
          (w'.statements.filter fun s => s.2.connection != l) := by
        refine hw.statements.filter (fun n n' s s' _ hs => ?_) (fun e he => ?_) fun e he => ?_
        · rw [Bool.eq_iff_iff, bne_iff_ne, bne_iff_ne, ne_eq, ne_eq, hs.connection_iff h]
        · exact bne_iff_ne.mpr fun heq => hapart.connection e he l (heq ▸ h)
        · exact bne_iff_ne.mpr fun heq => hapart.connection' e he k (heq ▸ h)
      dsimp only
      rw [hprivate]
      exact ⟨hvolumes, hw.connections.erase M.oneToOne h, hstatements, hw.next, hw.host⟩

/-! ## Files -/

/-- Bytes are stored in the same file. -/
theorem writeFile_linked (hapart : M.Apart) (hfiles : M.files) (path : String) (bytes : List UInt8) :
    Linked (Matched M G) Eq (writeFile (H := H) path bytes) (writeFile (H := H') path bytes) := by
  unfold writeFile
  split
  next file _ =>
    refine .get_bind fun w w' hw => ?_
    have hfound := findFile_same hapart hfiles hw file
    revert hfound
    generalize w.volumes.find? _ = x
    generalize w'.volumes.find? _ = y
    intro hfound
    cases hfound with
    | some hvolume =>
      refine .change fun w w' hw => { hw with volumes := ?_ }
      refine Aligned.update (f := fun v => { v with content := .bytes bytes })
        (g := fun v => { v with content := .bytes bytes }) hw.volumes M.oneToOne hvolume.1 ?_
      rintro v _ ⟨rfl, hpath⟩
      exact ⟨rfl, hpath⟩
    | none => exact fresh_linked.bind fun n n' hn => addVolume_linked hn fun _ => hfiles
  · exact .same ()
  · exact .same ()

/-! ## Functions -/

/-- Functions take the place of others alike. -/
theorem replaces_same {same : Nat → Nat → Prop} {f f' g g' : HostFunction} (hf : f.Same same f')
    (hg : g.Same same g') : f.replaces g = f'.replaces g' := by
  cases hf
  cases hg
  rfl

/-- Functions are registered alike. -/
theorem register_linked (hapart : M.Apart) (h : M.Same k l) {f f' : HostFunction}
    (hf : f.Same M.Same f') : Linked (Matched M G) Eq (register k f) (register l f') := by
  have hreplaces : ∀ g g' : HostFunction, g.Same M.Same g' → f.replaces g = f'.replaces g' :=
    fun _ _ hg => replaces_same hf hg
  cases hf with
  | @mk f r r' hr =>
    unfold register
    refine .ite (.same _) ((connection?_linked h).bind fun c? c?' hc => ?_)
    cases hc with
    | none => exact .same _
    | some hc =>
      cases hc with
      | @mk c _ _ fs fs' hv hfs =>
        have hkept : Linked (Matched M G) Eq
            (do
              World.modifyConnection (H := H) k fun c =>
                { c with functions := (c.functions.filter fun g =>
                    !HostFunction.replaces { f with record := r } g) ++ [{ f with record := r }] }
              return ResultCode.ok)
            (do
              World.modifyConnection (H := H') l fun c =>
                { c with functions := (c.functions.filter fun g =>
                    !HostFunction.replaces { f with record := r' } g) ++ [{ f with record := r' }] }
              return ResultCode.ok) := by
          refine (modifyConnection_linked h fun c c' hc => ?_).bind_same fun _ => .same _
          cases hc with
          | @mk c _ _ fs fs' hv hfs =>
            refine .mk c hv (List.rel_append ?_ (.cons (.mk f hr) .nil))
            exact forall₂_filter hfs fun g g' hg => congrArg not (hreplaces g g' hg)
        have hgeneral : (fs.any fun g => Text.sameName g.name f.name && g.arity == -1)
            = fs'.any fun g => Text.sameName g.name f.name && g.arity == -1 := by
          refine forall₂_any hfs fun g g' hg => ?_
          cases hg
          rfl
        dsimp only
        rw [hgeneral, forall₂_any hfs hreplaces]
        refine .ite (.get_bind fun w w' hw => ?_) hkept
        rw [isActive_same hapart h hw]
        exact .ite (.same _) ((expireStatements_linked hapart h).bind_same fun _ => hkept)

end HostSql.Engine
