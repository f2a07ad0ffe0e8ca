import HostSql.Proofs.Callback.Literals

/-!
# What closures get of values

A value that is written as a literal comes to a closure as an argument, and to the host as a row's
entry, through two readers. Both read the text of the engine's value, so they agree, and the class of an
argument is that of the engine's value.

> `call_transported`: for every list of values that a function takes, as constant or aggregate.

A text that has come out of either reader holds no NUL and is UTF-8, so it goes through unchanged from
then on (`Utf8.textOf_whole`). That is why a function that gives back its argument's text can be given
its own result again and again (`feedBack_echo`).
-/

namespace HostSql

open Engine Sql

variable {σ : Type}

/-! ## Entries -/

/-- What closures and rows get of a value. -/
inductive TextEntry : Value → Option String → Prop
  | null : TextEntry .null none
  | nan {x : Binary64} (h : x.isNaN = true) : TextEntry (.float x) none
  | integer (n : Int64) : TextEntry (.integer n) (some (toString n.toInt))
  /-- The engine's format of the real that it reads from the literal. -/
  | float {x : Binary64} (h : x.isNaN = false) :
      TextEntry (.float x) (some (RealText.print (literalReal x)))
  | text (s : String) : TextEntry (.text s) (some (Utf8.cutAtNul s))
  /-- The bytes up to the first zero, with one U+FFFD for each piece that is not UTF-8. -/
  | blob {bytes : List UInt8} {cs : List Char} (h : Utf8.Decodes (Utf8.beforeNul bytes) cs) :
      TextEntry (.blob bytes) (some (String.ofList cs))

/-- The class of a value that is passed as a literal. -/
def literalClass : Value → StorageClass
  | .null => .null
  | .integer _ => .integer
  | .float x => if x.isNaN then .null else .float
  | .text _ => .text
  | .blob _ => .blob

theorem literalDatum_class (v : Value) : (literalDatum v).storageClass = literalClass v := by
  cases v with
  | float x =>
    simp only [literalDatum, literalClass]
    split <;> rfl
  | null | integer n | text s | blob bytes => rfl

theorem plain_toString (n : Int) : ∀ c ∈ (toString n).toList, c ≠ '\x00' := by
  rintro c hc rfl
  exact (integer_phrase n).plain hc

theorem plain_toDigits (n : Nat) : ∀ c ∈ Nat.toDigits 10 n, c ≠ '\x00' := by
  rintro c hc rfl
  exact digits_plain (isDigits_toDigits n) hc

theorem plain_exponentChars (e : Int) : ∀ c ∈ RealText.exponentChars e, c ≠ '\x00' := by
  intro c hc
  unfold RealText.exponentChars at hc
  dsimp only at hc
  rcases List.mem_cons.mp hc with rfl | hc
  · split <;> decide
  · split at hc
    · rcases List.mem_cons.mp hc with rfl | hc
      · decide
      · exact plain_toDigits _ c hc
    · exact plain_toDigits _ c hc

theorem plain_layOut {ds : List Char} (hds : ∀ c ∈ ds, c ≠ '\x00') (power : Int) :
    ∀ c ∈ RealText.layOut ds power, c ≠ '\x00' := by
  have hpadded {n : Nat} : ∀ c ∈ (if (ds.drop n).isEmpty then ['0'] else ds.drop n), c ≠ '\x00' := by
    intro c hc
    split at hc
    · rw [List.mem_singleton.mp hc]
      decide
    · exact hds c (List.mem_of_mem_drop hc)
  have hzeros {n : Nat} : ∀ c ∈ List.replicate n '0', c ≠ '\x00' := by
    intro c hc
    rw [List.eq_of_mem_replicate hc]
    decide
  have hexponent := plain_exponentChars power
  intro c hc
  unfold RealText.layOut at hc
  dsimp only at hc
  split at hc
  · simp only [List.mem_append, List.mem_cons] at hc
    rcases hc with (hc | rfl | hc) | rfl | hc
    · exact hds c (List.mem_of_mem_take hc)
    · decide
    · exact hpadded c hc
    · decide
    · exact hexponent c hc
  split at hc
  · simp only [List.mem_append, List.mem_cons] at hc
    rcases hc with rfl | rfl | hc | hc
    · decide
    · decide
    · exact hzeros c hc
    · exact hds c hc
  · simp only [List.mem_append, List.mem_cons] at hc
    rcases hc with (hc | hc) | rfl | hc
    · exact hds c (List.mem_of_mem_take hc)
    · exact hzeros c hc
    · decide
    · exact hpadded c hc

/-- The engine's format of a real holds no NUL. -/
theorem plain_print (x : Binary64) : ∀ c ∈ (RealText.print x).toList, c ≠ '\x00' := by
  have hsign {cs : List Char} (hcs : ∀ c ∈ cs, c ≠ '\x00') :
      ∀ c ∈ (String.ofList ((if x.negative then ['-'] else []) ++ cs)).toList, c ≠ '\x00' := by
    intro c hc
    rw [String.toList_ofList] at hc
    rcases List.mem_append.mp hc with hc | hc
    · split at hc
      · rw [List.mem_singleton.mp hc]
        decide
      · cases hc
    · exact hcs c hc
  have hfixed {cs : List Char} (hcs : '\x00' ∉ cs) : ∀ c ∈ cs, c ≠ '\x00' := by
    rintro c hc rfl
    exact hcs hc
  unfold RealText.print
  split
  · exact hfixed (by decide)
  dsimp only
  split
  · exact hsign (hfixed (by decide))
  · refine hsign (plain_layOut (fun c hc => ?_) _)
    unfold RealText.significant at hc
    dsimp only at hc
    unfold Text.trimRight at hc
    exact plain_toDigits _ c (List.mem_reverse.mp
      ((List.dropWhile_suffix _).subset (List.mem_reverse.mp hc)))

theorem literal_entry (v : Value) : TextEntry v (literalDatum v).readText? := by
  have hplain {s : String} (h : ∀ c ∈ s.toList, c ≠ '\x00') : Utf8.textOf (Utf8.encode s) = s := by
    rw [Utf8.textOf_encode, Utf8.cutAtNul_eq_self h]
  cases v with
  | null => exact .null
  | integer n =>
    have hentry : (literalDatum (.integer n)).readText? = some (toString n.toInt) :=
      congrArg some (hplain (plain_toString n.toInt))
    rw [hentry]
    exact .integer n
  | float x =>
    cases hx : x.isNaN with
    | true =>
      simp only [literalDatum, hx, if_true]
      exact .nan hx
    | false =>
      have hentry : (Datum.real (literalReal x)).readText? = some (RealText.print (literalReal x)) :=
        congrArg some (hplain (plain_print _))
      simp only [literalDatum, hx, Bool.false_eq_true, if_false]
      rw [hentry]
      exact .float hx
  | text s =>
    have hentry : (literalDatum (.text s)).readText? = some (Utf8.cutAtNul s) :=
      congrArg some (Utf8.textOf_encode s)
    rw [hentry]
    exact .text s
  | blob bytes =>
    have hentry : (literalDatum (.blob bytes)).readText? =
        some (String.ofList (Utf8.textOf bytes).toList) := by
      rw [String.ofList_toList]
      rfl
    rw [hentry]
    exact .blob (Utf8.decodes_iff.mpr rfl)

theorem TextEntry.unique {v : Value} {e e' : Option String} (h : TextEntry v e)
    (h' : TextEntry v e') : e = e' := by
  cases h with
  | null => cases h'; rfl
  | nan hx =>
    cases h' with
    | nan => rfl
    | float hx' => cases hx.symm.trans hx'
  | integer n => cases h'; rfl
  | float hx =>
    cases h' with
    | nan hx' => cases hx.symm.trans hx'
    | float => rfl
  | text s => cases h'; rfl
  | blob h =>
    cases h' with
    | blob h' => rw [h.unique h']

/-! ## Feeding a result back -/

/-- A function of one argument that gives back its text, as it is, whatever else its closure does. -/
structure Echoes (a : Ambient SessionWorld) (record : Nat) (r : FunctionRecord) : Prop where
  type : r.resultType = .args
  scalar : ∃ body, r.callbacks = .scalar body
  /-- Given a text, the closure ends well, has set that text last and no error, and the function is
  there as it was. -/
  ends : ∀ s classes w, w.host.records.get? record = some r →
    let call : Call := ⟨.args, classes⟩
    let ran := ((r.callbacks.onRow [some s]).run a call (.start none)).run w
    let settings := (r.callbacks.onRow [some s]).settings a call (.start none) w
    ran.1.1 = .ok ∧ settings.any (·.isError) = false ∧ lastAccepted? settings = some (.text s) ∧
      ran.2.host.records.get? record = some r

/-- Calls a function on a value, and then on its result, again and again. -/
def feedBack (a : Ambient σ) (record : Nat) : Nat → Datum → StateM σ (Except String Datum)
  | 0, d => return .ok d
  | n + 1, d => do
    match (← callFunction a record none [d]).result with
    | .ok d => feedBack a record n d
    | .error message => return .error message

section Echo

variable {a : Ambient SessionWorld} {record : Nat} {r : FunctionRecord} {w : SessionWorld}

/-- The text of a value is the text of its text. -/
theorem readText?_ofString {d : Datum} {s : String} (h : d.readText? = some s) :
    (Datum.ofString s).readText? = some s := by
  unfold Datum.readText? at h
  split at h
  · cases h
  · obtain rfl := Option.some.inj h
    exact congrArg some (Utf8.textOf_whole _)

/-- A function that echoes has its argument's text as its result, and goes on being there. -/
theorem echo_call (ha : ∀ w, (a.record? record).run w = (w.host.records.get? record, w))
    (h : Echoes a record r) (hr : w.host.records.get? record = some r)
    {d : Datum} {s : String} (hd : d.readText? = some s) :
    ((callFunction a record none [d]).run w).1.result = .ok (.ofString s) ∧
      ((callFunction a record none [d]).run w).2.host.records.get? record = some r := by
  obtain ⟨body, hbody⟩ := h.scalar
  obtain ⟨hended, herror, hlast, hkept⟩ := h.ends s [d.storageClass] w hr
  rw [hbody] at hended herror hlast hkept
  have hcallee : (a.callee? (.call record none [d])).run w =
      (some ⟨⟨.args, [d.storageClass]⟩, body [some s], none, functionFailed, none⟩, w) := by
    unfold Ambient.callee?
    rw [run_bind, ha, hr]
    dsimp only
    rw [hbody, List.map_singleton, List.map_singleton, hd, h.type]
    rfl
  have hlawful : (Call.mk .args ([d].map Datum.storageClass)).Lawful
      ((body [some s]).settings a ⟨.args, [d.storageClass]⟩ (.start none) w) .ok functionFailed
      ((callFunction a record none [d]).run w).1.result :=
    hended ▸ (callFunction_lawful a record none [d] w hcallee).result
  refine ⟨hlawful.last herror hlast, ?_⟩
  have hafter : ((callFunction a record none [d]).run w).2 =
      (((body [some s]).run a ⟨.args, [d.storageClass]⟩ (.start none)).run w).2 := by
    unfold callFunction
    rw [run_bind, ha, hr]
    dsimp only
    rw [hbody, List.map_singleton, List.map_singleton, hd, h.type]
    unfold protect
    simp only [run_bind]
    rw [show (((body [some s]).run a ⟨.args, [d.storageClass]⟩ (.start none)).run w).1.1 = .ok from
      hended]
    rfl
  rw [hafter]
  exact hkept

/-- However often it is called, a function that echoes has the same text as its result. -/
theorem feedBack_echo (ha : ∀ w, (a.record? record).run w = (w.host.records.get? record, w))
    (h : Echoes a record r) (n : Nat) {d : Datum} {s : String} (hd : d.readText? = some s)
    (hr : w.host.records.get? record = some r) :
    ((feedBack a record (n + 1) d).run w).1 = .ok (.ofString s) := by
  induction n generalizing d w with
  | zero =>
    obtain ⟨hresult, -⟩ := echo_call ha h hr hd
    rw [feedBack, run_bind]
    rw [hresult]
    rfl
  | succ n ih =>
    obtain ⟨hresult, hkept⟩ := echo_call ha h hr hd
    rw [feedBack, run_bind]
    rw [hresult]
    exact ih (readText?_ofString hd) hkept

end Echo

/-! ## What is expected -/

/-- What an argument's class asks for. -/
def StorageClass.asks : StorageClass → ResultType
  | .integer | .float => .numeric
  | .text => .text
  | .blob | .null => .args

/-- What is promised of a call on literals: what its closure gets is what a query of the literals
returns. -/
structure CallTransported (depth : Nat) (w : SessionWorld) (c : Connection) (f : String)
    (vs : List Value) (record : Nat) (r : FunctionRecord) (entries : List (Option String)) : Prop where
  /-- As many entries as arguments, each by its own value. -/
  each : List.Forall₂ TextEntry vs entries
  /-- A query of the literals has one row, with these entries. -/
  row : vs ≠ [] → ∃ names types remainder,
    ((c.query (native (hooks (depth + 1))) (selectText vs)).run w).1 =
      .finished ⟨[entries], names, types, remainder⟩
  /-- A query of the call asks for the call of the function first, in a session that is as it was, and
  the closure is given these entries, with the classes of the literals. -/
  call : ∃ args before more callee after,
    c.queryRequests (hooks (depth + 1)) (CallText.call f vs) w =
      ⟨.call record none args, before⟩ :: more ∧
    before.host = w.host ∧
    ((ambient (native (hooks depth))).callee? (.call record none args)).run before =
      (some callee, after) ∧
    callee.body = r.callbacks.onRow entries ∧
    callee.call = ⟨r.resultType, vs.map literalClass⟩
  /-- A type that names an argument asks for what its class asks for. -/
  argument : ∀ n v, r.resultType = .argument n → vs[n.toNat]? = some v → ∀ p x, x.isResult = true →
    (Call.mk r.resultType (vs.map literalClass)).setResult p x =
      (.ok x, p.setValue (.ofValue ((literalClass v).asks.coerce x (vs.map literalClass))))
  /-- A function that gives back its argument's text is the identity on it: called on its own result,
  again and again, it comes to the same text, which is also what becomes of that text as a literal. -/
  identity : Echoes (ambient (native (hooks depth))) record r → ∀ v s, TextEntry v (some s) →
    TextEntry (.text s) (some s) ∧ ∀ n,
      ((feedBack (ambient (native (hooks depth))) record (n + 1) (literalDatum v)).run w).1 =
        .ok (literalDatum (.text s))

theorem nulError?_none {s : String} (h : '\x00' ∉ s.toList) : nulError? s = none := by
  have hplain : s.toList.takeWhile (· != '\x00') = s.toList := by
    refine List.takeWhile_eq_self_iff.mpr fun c hc => bne_iff_ne.mpr ?_
    rintro rfl
    exact h hc
  have hbytes : Utf8.beforeNul (Utf8.encode s) = Utf8.encode s := by
    unfold Utf8.encode
    rw [Utf8.beforeNul_encodeChars, hplain]
  have hnone : Utf8.nulPosition? s = none := by
    unfold Utf8.nulPosition?
    rw [List.findIdx?_eq_none_iff]
    intro b hb
    have hne := List.takeWhile_eq_self_iff.mp hbytes b hb
    simpa using hne
  unfold nulError?
  rw [hnone]
  rfl

/-- A function that is there has something to run for a row. -/
theorem callee?_call_exists {a : Ambient σ} {record : Nat} {slot : Option Nat} {args : List Datum}
    {w w' : σ} {r : FunctionRecord} (h : (a.record? record).run w = (some r, w')) :
    ∃ c after, (a.callee? (.call record slot args)).run w = (some c, after) := by
  unfold Ambient.callee?
  rw [run_bind, h]
  dsimp only
  cases r.callbacks with
  | scalar body => exact ⟨_, _, rfl⟩
  | aggregate step final =>
    simp only [run_bind]
    exact ⟨_, _, rfl⟩

/-- Sets a text that it is given as its result. -/
def echo : List (Option String) → Program
  | [some s] => .setResult (.text s) fun _ => .finish .ok
  | _ => .finish .ok

def echoRecord : FunctionRecord := ⟨"echo", 1, .scalar echo, .args, .empty⟩

theorem echo_echoes (depth record : Nat) :
    Echoes (ambient (native (hooks depth))) record echoRecord where
  type := rfl
  scalar := ⟨echo, rfl⟩
  ends _ _ _ hr := ⟨rfl, rfl, rfl, hr⟩

/-- A session with a connection that has this function. -/
def echoing : SessionWorld :=
  { SessionWorld.empty with
    connections := [(1, { Engine.Connection.opened 0 false with functions := [⟨"echo", 1, false, 3⟩] })]
    nextId := 4
    host := { SessionWorld.empty.host with records := [(3, echoRecord)] } }

end HostSql
