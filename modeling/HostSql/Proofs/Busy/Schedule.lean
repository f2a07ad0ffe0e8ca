import HostSql.Host.Busy
import HostSql.Proofs.Coupling
import Mathlib.Algebra.Ring.Nat
import Mathlib.Data.Nat.Find

/-!
# How long a timeout waits

A timeout answers a request with a wait as long as its budget is not used up. Delays follow a schedule
that a request with number zero begins anew; the waits are the delays, the last one cut to what is left.
So after `j` requests the delays of the schedule have been waited, or the budget (`At.waited`), and the
next request is refused exactly if the first `j` delays use up the budget.

> `timeouts_lawful`: which requests a timeout of any budget refuses, and how long it waits in all.

Everything but the closed form of the schedule (`total_delay`) holds of any delays. It does not matter
for the answers if the delays that are doubled are a little too long (`Rounded`).
-/

namespace HostSql.Backoff

/-! ## Any schedule -/

section Schedule

variable (delays : Nat → Nat)

/-- How long the first delays of a schedule last together. -/
def total : Nat → Nat
  | 0 => 0
  | j + 1 => total j + delays j

/-- The waits that answer some requests, `none` where one is refused. -/
def waitsOf (b : Backoff) : List UInt32 → List (Option Nat)
  | [] => []
  | attempt :: rest =>
    let (wait, b) := (if attempt = 0 then b.restart else b).nextWaitOf delays
    wait :: b.waitsOf rest

/-- The state of a backoff between two requests, the next of which is the `j`-th of its lock. -/
structure At (budget j : Nat) (b : Backoff) : Prop where
  limit : b.budget = budget
  waited : b.waited = min budget (total delays j)
  used : total delays j < budget → b.used = j

/-- The wait that the `j`-th request of a lock is answered with. -/
def share (budget j : Nat) : Option Nat :=
  if total delays j < budget then some (min (delays j) (budget - total delays j)) else none

variable {delays} {budget j : Nat} {b : Backoff}

theorem share_isSome : (share delays budget j).isSome = decide (total delays j < budget) := by
  unfold share
  by_cases h : total delays j < budget
  · rw [if_pos h, decide_eq_true h]
    rfl
  · rw [if_neg h, decide_eq_false h]
    rfl

theorem ofBudget_at (budget : Nat) : At delays budget 0 (ofBudget budget) where
  limit := rfl
  waited := (Nat.min_zero budget).symm
  used _ := rfl

theorem At.restart (h : At delays budget j b) : At delays budget 0 b.restart :=
  h.limit ▸ ofBudget_at b.budget

/-- One request is answered by its share, and then the next is due. -/
theorem At.next (h : At delays budget j b) :
    (b.nextWaitOf delays).1 = share delays budget j ∧
      At delays budget (j + 1) (b.nextWaitOf delays).2 := by
  obtain ⟨hlimit, hwaited, hused⟩ := h
  unfold nextWaitOf share
  by_cases hleft : total delays j < budget
  · have hwaited : b.waited = total delays j := by omega
    rw [if_neg (by omega), if_pos hleft, hused hleft, hlimit, hwaited]
    refine ⟨rfl, rfl, ?_, fun _ => rfl⟩
    show total delays j + min (delays j) (budget - total delays j) =
      min budget (total delays j + delays j)
    omega
  · rw [if_pos (by omega), if_neg hleft]
    refine ⟨rfl, hlimit, ?_, fun hnext => ?_⟩
    · show b.waited = min budget (total delays j + delays j)
      omega
    · have hnext : total delays j + delays j < budget := hnext
      omega

/-- The places of requests in their locks, where the first has the given place unless it begins
a lock. -/
def places : (next : Nat) → List UInt32 → List Nat
  | _, [] => []
  | next, attempt :: rest =>
    if attempt = 0 then 0 :: places 1 rest else next :: places (next + 1) rest

/-- Every request is answered by the share of its place. -/
theorem At.waitsOf_eq (h : At delays budget j b) (attempts : List UInt32) :
    b.waitsOf delays attempts = (places j attempts).map (share delays budget) := by
  induction attempts generalizing j b with
  | nil => rfl
  | cons attempt rest ih =>
    unfold waitsOf places
    by_cases hzero : attempt = 0
    · obtain ⟨hwait, hnext⟩ := h.restart.next
      simp only [if_pos hzero, List.map_cons, hwait, ih hnext]
    · obtain ⟨hwait, hnext⟩ := h.next
      simp only [if_neg hzero, List.map_cons, hwait, ih hnext]

/-! ### Places -/

/-- A place counts from the latest request with number zero, or from the first request. -/
theorem places_getElem? (attempts : List UInt32) (next i : Nat) (hi : i < attempts.length) :
    ∃ z ≤ i, (∀ k, z < k → k ≤ i → attempts[k]? ≠ some 0) ∧
      (attempts[z]? = some 0 ∧ (places next attempts)[i]? = some (i - z) ∨
        z = 0 ∧ attempts[0]? ≠ some 0 ∧ (places next attempts)[i]? = some (next + i)) := by
  induction attempts generalizing next i with
  | nil => exact absurd hi (Nat.not_lt_zero i)
  | cons attempt rest ih =>
    unfold places
    cases i with
    | zero =>
      refine ⟨0, Nat.le_refl 0, fun k hk hk' => absurd hk (by omega), ?_⟩
      by_cases hzero : attempt = 0
      · rw [if_pos hzero]
        exact .inl ⟨congrArg some hzero, rfl⟩
      · rw [if_neg hzero]
        exact .inr ⟨rfl, fun h => hzero (Option.some.inj h), rfl⟩
    | succ i =>
      have hi : i < rest.length := Nat.lt_of_succ_lt_succ hi
      -- from here on the rest is looked at, where the next place is one or one more
      have hshift {z : Nat} (hz : ∀ k, z < k → k ≤ i → rest[k]? ≠ some 0) :
          ∀ k, z + 1 < k → k ≤ i + 1 → (attempt :: rest)[k]? ≠ some 0 := by
        intro k hk hk'
        obtain ⟨k, rfl⟩ : ∃ n, k = n + 1 := ⟨k - 1, by omega⟩
        exact hz k (by omega) (by omega)
      have hwhole (hnone : ∀ k, 0 < k → k ≤ i → rest[k]? ≠ some 0) (hfirst : rest[0]? ≠ some 0) :
          ∀ k, 0 < k → k ≤ i + 1 → (attempt :: rest)[k]? ≠ some 0 := by
        intro k hk hk'
        obtain ⟨k, rfl⟩ : ∃ n, k = n + 1 := ⟨k - 1, by omega⟩
        rcases Nat.eq_zero_or_pos k with rfl | hpos
        · exact hfirst
        · exact hnone k hpos (by omega)
      by_cases hzero : attempt = 0
      · rw [if_pos hzero]
        obtain ⟨z, hz, hnone, ⟨hbegins, hplace⟩ | ⟨rfl, hfirst, hplace⟩⟩ := ih 1 i hi
        · exact ⟨z + 1, by omega, hshift hnone, .inl ⟨hbegins, by simpa using hplace⟩⟩
        · refine ⟨0, by omega, hwhole hnone hfirst, .inl ⟨congrArg some hzero, ?_⟩⟩
          simpa [Nat.add_comm] using hplace
      · rw [if_neg hzero]
        obtain ⟨z, hz, hnone, ⟨hbegins, hplace⟩ | ⟨rfl, hfirst, hplace⟩⟩ := ih (next + 1) i hi
        · exact ⟨z + 1, by omega, hshift hnone, .inl ⟨hbegins, by simpa using hplace⟩⟩
        · refine ⟨0, by omega, hwhole hnone hfirst,
            .inr ⟨rfl, fun h => hzero (Option.some.inj h), ?_⟩⟩
          simpa [Nat.add_comm, Nat.add_left_comm] using hplace

/-- Only which requests have number zero matters. -/
theorem places_congr {as bs : List UInt32} (h : as.map (· == 0) = bs.map (· == 0)) (next : Nat) :
    places next as = places next bs := by
  induction as generalizing bs next with
  | nil =>
    cases bs with
    | nil => rfl
    | cons b bs => cases h
  | cons a as ih =>
    cases bs with
    | nil => cases h
    | cons b bs =>
      obtain ⟨hhead, htail⟩ := List.cons.inj h
      have hhead : (a == 0) = (b == 0) := hhead
      have hiff : a = 0 ↔ b = 0 := by
        rw [← beq_iff_eq, hhead, beq_iff_eq]
      unfold places
      by_cases hzero : b = 0
      · rw [if_pos hzero, if_pos (hiff.mpr hzero), ih htail]
      · rw [if_neg hzero, if_neg (mt hiff.mp hzero), ih htail]

/-- Requests without number zero take the next places. -/
theorem places_of_ne_zero {rest : List UInt32} (h : ∀ a ∈ rest, a ≠ 0) (next : Nat) :
    places next rest = List.range' next rest.length := by
  induction rest generalizing next with
  | nil => rfl
  | cons attempt rest ih =>
    unfold places
    rw [if_neg (h attempt List.mem_cons_self), ih fun a ha => h a (List.mem_cons_of_mem _ ha)]
    rfl

/-- What has been requested before matters only for the next place. -/
theorem places_append (before later : List UInt32) (next : Nat) :
    ∃ n, (before = [] → n = next) ∧
      (places next (before ++ later)).drop before.length = places n later := by
  induction before generalizing next with
  | nil => exact ⟨next, fun _ => rfl, rfl⟩
  | cons attempt before ih =>
    obtain ⟨n, -, hn⟩ := ih (if attempt = 0 then 1 else next + 1)
    refine ⟨n, fun h => absurd h (List.cons_ne_nil _ _), ?_⟩
    rw [← hn, List.cons_append, places]
    split <;> rfl

/-- The requests of one lock take the places from zero on, whatever came before. -/
theorem places_lock {before rest : List UInt32} {first : UInt32} (hfirst : first = 0 ∨ before = [])
    (hrest : ∀ a ∈ rest, a ≠ 0) :
    (places 0 (before ++ first :: rest)).drop before.length = List.range (rest.length + 1) := by
  obtain ⟨n, hn, hplaces⟩ := places_append before (first :: rest) 0
  rw [hplaces, List.range_eq_range']
  unfold places
  split
  · rw [places_of_ne_zero hrest]
    rfl
  · next hne =>
    rw [places_of_ne_zero hrest, hn (hfirst.resolve_left hne)]
    rfl

/-! ### The waits of one lock -/

theorem total_mono {i j : Nat} (h : i ≤ j) : total delays i ≤ total delays j := by
  induction h with
  | refl => exact Nat.le_refl _
  | step _ ih => exact Nat.le_trans ih (Nat.le_add_right _ _)

/-- The waits of the first requests of a lock, one after the other. -/
def lockWaits (delays : Nat → Nat) (budget n : Nat) : List (Option Nat) :=
  (List.range n).map (share delays budget)

theorem lockWaits_succ (n : Nat) :
    lockWaits delays budget (n + 1) = lockWaits delays budget n ++ [share delays budget n] := by
  simp [lockWaits, List.range_succ]

/-- Together the waits of a lock last as long as the delays, or use up the budget. -/
theorem sum_lockWaits (n : Nat) :
    ((lockWaits delays budget n).filterMap id).sum = min budget (total delays n) := by
  induction n with
  | zero => exact (Nat.min_zero budget).symm
  | succ n ih =>
    rw [lockWaits_succ, List.filterMap_append, List.sum_append, ih]
    show _ = min budget (total delays n + delays n)
    unfold share
    split
    · show _ + (min (delays n) (budget - total delays n) + 0) = _
      omega
    · show _ + 0 = _
      omega

/-- What holds of the waits of a lock, whatever the delays are. -/
structure WaitsLawful (budget longest : Nat) (waits : List (Option Nat)) : Prop where
  within : (waits.filterMap id).sum ≤ budget
  short : ∀ w, some w ∈ waits → w ≤ longest
  /-- Once a request is refused, the budget has been waited. -/
  whole : none ∈ waits → (waits.filterMap id).sum = budget

theorem lockWaits_lawful {longest : Nat} (hlongest : ∀ j, delays j ≤ longest) (n : Nat) :
    WaitsLawful budget longest (lockWaits delays budget n) := by
  refine ⟨?_, fun w hw => ?_, fun hnone => ?_⟩
  · rw [sum_lockWaits]
    exact Nat.min_le_left _ _
  · obtain ⟨j, -, hj⟩ := List.mem_map.mp hw
    unfold share at hj
    split at hj
    · rw [← Option.some.inj hj]
      exact Nat.le_trans (Nat.min_le_left _ _) (hlongest j)
    · cases hj
  · obtain ⟨j, hj, hrefused⟩ := List.mem_map.mp hnone
    unfold share at hrefused
    split at hrefused
    · cases hrefused
    · next hused =>
      have hmono : total delays j ≤ total delays _ :=
        total_mono (Nat.le_of_lt (List.mem_range.mp hj))
      rw [sum_lockWaits]
      omega

/-- A lock is waited for up to a request, and not from there on. -/
theorem lockWaits_isSome {m : Nat} (hm : budget ≤ total delays m)
    (hleast : ∀ j < m, total delays j < budget) (n : Nat) :
    (lockWaits delays budget n).map (·.isSome) =
      List.replicate (min m n) true ++ List.replicate (n - m) false := by
  refine List.ext_getElem (by simp [lockWaits]; omega) fun j hj hj' => ?_
  simp only [lockWaits, List.getElem_map, List.getElem_range, List.getElem_append,
    List.getElem_replicate, List.length_replicate, share_isSome]
  have hlen : j < n := by simpa [lockWaits] using hj
  by_cases h : j < m
  · rw [decide_eq_true (hleast j h), dif_pos (by omega)]
  · have hmono : total delays m ≤ total delays j := total_mono (Nat.le_of_not_lt h)
    rw [decide_eq_false (by omega), dif_neg (by omega)]

end Schedule

/-! ## The schedule of timeouts -/

/-- How long the first delays last together. The delays double up to the seventh and then stay at
a tenth of a second. -/
def scheduled (j : Nat) : Nat :=
  if j ≤ 7 then 1000 * (2 ^ j - 1) else 127000 + 100000 * (j - 7)

theorem delay_eq (j : Nat) : delay j = if j < 7 then 1000 * 2 ^ j else 100000 := by
  show min (1000 * 2 ^ j) 100000 = _
  split
  · next h =>
    have hpow : 2 ^ j ≤ 2 ^ 6 := Nat.pow_le_pow_right (by decide) (by omega)
    omega
  · next h =>
    have hpow : 2 ^ 7 ≤ 2 ^ j := Nat.pow_le_pow_right (by decide) (by omega)
    omega

theorem scheduled_succ (j : Nat) : scheduled (j + 1) = scheduled j + delay j := by
  have hpos : 0 < 2 ^ j := Nat.two_pow_pos j
  rw [delay_eq]
  unfold scheduled
  by_cases h : j < 7
  · rw [if_pos (by omega), if_pos (by omega), if_pos h, Nat.pow_succ]
    omega
  · rw [if_neg (by omega), if_neg h]
    split
    · obtain rfl : j = 7 := by omega
      rfl
    · omega

theorem total_delay (j : Nat) : total delay j = scheduled j := by
  induction j with
  | zero => rfl
  | succ j ih => rw [total, ih, scheduled_succ]

/-- Delays in nanoseconds that may be a little longer than scheduled while they double. -/
structure Rounded (delays : Nat → Nat) : Prop where
  doubled : ∀ j < 7, 1000 * delay j ≤ delays j ∧ delays j ≤ 1000 * delay j + 100
  capped : ∀ j, 7 ≤ j → delays j = 1000 * delay j

/-- Rounding adds up to less than a microsecond. -/
theorem Rounded.total {delays : Nat → Nat} (h : Rounded delays) (j : Nat) :
    1000 * scheduled j ≤ Backoff.total delays j ∧
      Backoff.total delays j ≤ 1000 * scheduled j + 100 * min j 7 := by
  induction j with
  | zero => exact ⟨Nat.le_refl 0, Nat.zero_le _⟩
  | succ j ih =>
    rw [scheduled_succ]
    unfold Backoff.total
    rcases Nat.lt_or_ge j 7 with hj | hj
    · have hdelay := h.doubled j hj
      omega
    · have hdelay := h.capped j hj
      omega

/-- So it does not decide whether a number of whole microseconds is used up. -/
theorem Rounded.total_lt_iff {delays : Nat → Nat} (h : Rounded delays) (budget j : Nat) :
    Backoff.total delays j < 1000 * budget ↔ Backoff.total delay j < budget := by
  have htotal := h.total j
  rw [total_delay]
  omega

/-! ## Timeouts -/

theorem requests_eq (b : Backoff) (attempts : List UInt32) :
    b.requests attempts = (b.waitsOf delay attempts).map (·.isSome) := by
  induction attempts generalizing b with
  | nil => rfl
  | cons attempt rest ih => exact congrArg (_ :: ·) (ih _)

/-- The policy of a connection answers as its backoff does. -/
theorem policy_requests {σ : Type} (a : Ambient σ) (b : Backoff) (attempts : List UInt32) (w : σ) :
    ((BusyPolicy.timeout b).requests a attempts).run w = (b.requests attempts, w) := by
  induction attempts generalizing b with
  | nil => rfl
  | cons attempt rest ih =>
    show ((do
      let answers ← (BusyPolicy.timeout (b.request attempt).2).requests a rest
      return (b.request attempt).1 :: answers : StateM σ _)).run w = _
    rw [run_bind, ih]
    rfl

/-- What is expected of a timeout with a budget in microseconds. -/
structure Lawful (budget : Nat) : Prop where
  /-- A request is refused if the delays of its lock have used up the budget. The lock has begun
  with the latest request with number zero, or with the first. -/
  answers : ∀ attempts i, i < attempts.length → ∃ z ≤ i,
    (z = 0 ∨ attempts[z]? = some 0) ∧ (∀ k, z < k → k ≤ i → attempts[k]? ≠ some 0) ∧
    ((ofBudget budget).requests attempts)[i]? = some (decide (scheduled (i - z) < budget))
  /-- It only matters which requests have number zero. -/
  numbers : ∀ as bs : List UInt32, as.map (· == 0) = bs.map (· == 0) →
    (ofBudget budget).requests as = (ofBudget budget).requests bs
  /-- The requests of a lock are granted up to the first that finds the budget used up. -/
  lock : ∃ m, budget ≤ scheduled m ∧ (∀ j < m, scheduled j < budget) ∧
    ∀ before first rest, (first = 0 ∨ before = []) → (∀ a ∈ rest, a ≠ 0) →
      ((ofBudget budget).requests (before ++ first :: rest)).drop before.length =
        List.replicate (min m (rest.length + 1)) true ++
          List.replicate (rest.length + 1 - m) false
  /-- What is granted is waited, and that is the budget once a request is refused. -/
  waits : ∀ attempts, (ofBudget budget).requests attempts =
    ((ofBudget budget).waitsOf delay attempts).map (·.isSome)
  waited : ∀ before first rest, (first = 0 ∨ before = []) → (∀ a ∈ rest, a ≠ 0) →
    WaitsLawful budget 100000
      (((ofBudget budget).waitsOf delay (before ++ first :: rest)).drop before.length)
  /-- So a connection is answered that has this timeout for its policy. -/
  policy : ∀ {σ : Type} (a : Ambient σ) attempts w,
    ((BusyPolicy.timeout (ofBudget budget)).requests a attempts).run w =
      ((ofBudget budget).requests attempts, w)
  /-- The answers are the same if delays are counted in nanoseconds and rounded, and then the same
  holds of the waits. -/
  rounded : ∀ delays, Rounded delays →
    (∀ attempts, ((ofBudget (1000 * budget)).waitsOf delays attempts).map (·.isSome) =
      (ofBudget budget).requests attempts) ∧
    ∀ before first rest, (first = 0 ∨ before = []) → (∀ a ∈ rest, a ≠ 0) →
      WaitsLawful (1000 * budget) 100000000
        (((ofBudget (1000 * budget)).waitsOf delays (before ++ first :: rest)).drop before.length)

/-- The waits of a lock are those of its first requests. -/
theorem waitsOf_lock (delays : Nat → Nat) (budget : Nat) {before rest : List UInt32}
    {first : UInt32} (hfirst : first = 0 ∨ before = []) (hrest : ∀ a ∈ rest, a ≠ 0) :
    ((ofBudget budget).waitsOf delays (before ++ first :: rest)).drop before.length =
      lockWaits delays budget (rest.length + 1) := by
  rw [(ofBudget_at budget).waitsOf_eq, ← List.map_drop, places_lock hfirst hrest]
  rfl

/-- Every budget is used up at some time. -/
theorem exists_le_scheduled (budget : Nat) :
    ∃ m, budget ≤ scheduled m ∧ ∀ j < m, scheduled j < budget := by
  have hgrows (j : Nat) : j ≤ scheduled j := by
    induction j with
    | zero => exact Nat.le_refl 0
    | succ j ih =>
      have hpos : 0 < 2 ^ j := Nat.two_pow_pos j
      rw [scheduled_succ, delay_eq]
      split <;> omega
  have hexists : ∃ m, budget ≤ scheduled m := ⟨budget, hgrows budget⟩
  classical
  exact ⟨Nat.find hexists, Nat.find_spec hexists, fun j hj => by
    have := Nat.find_min hexists hj
    omega⟩

theorem Rounded.longest {delays : Nat → Nat} (h : Rounded delays) (j : Nat) :
    delays j ≤ 100000000 := by
  rcases Nat.lt_or_ge j 7 with hj | hj
  · have hpow : 2 ^ j ≤ 2 ^ 6 := Nat.pow_le_pow_right (by decide) (by omega)
    have hdelay := (h.doubled j hj).2
    rw [delay_eq, if_pos hj] at hdelay
    omega
  · rw [h.capped j hj, delay_eq, if_neg (by omega)]

/-- Timeouts are answered by the closed form of their schedule, for every budget. -/
theorem timeouts_lawful (budget : Nat) : Lawful budget where
  answers attempts i hi := by
    obtain ⟨z, hz, hnone, hplace⟩ := places_getElem? attempts 0 i hi
    refine ⟨z, hz, ?_, hnone, ?_⟩
    · exact hplace.elim (fun h => .inr h.1) fun h => .inl h.1
    · have hplace : (places 0 attempts)[i]? = some (i - z) := by
        rcases hplace with ⟨-, h⟩ | ⟨rfl, -, h⟩
        · exact h
        · simpa using h
      rw [requests_eq, (ofBudget_at budget).waitsOf_eq, List.getElem?_map, List.getElem?_map,
        hplace, Option.map_some, Option.map_some, share_isSome, total_delay]
  numbers as bs h := by
    rw [requests_eq, requests_eq, (ofBudget_at budget).waitsOf_eq, (ofBudget_at budget).waitsOf_eq,
      places_congr h]
  lock := by
    obtain ⟨m, hm, hleast⟩ := exists_le_scheduled budget
    refine ⟨m, hm, hleast, fun before first rest hfirst hrest => ?_⟩
    rw [requests_eq, ← List.map_drop, waitsOf_lock delay budget hfirst hrest]
    simp only [← total_delay] at hm hleast
    exact lockWaits_isSome hm hleast _
  waits := requests_eq _
  waited before first rest hfirst hrest := by
    rw [waitsOf_lock delay budget hfirst hrest]
    exact lockWaits_lawful (fun j => Nat.min_le_right _ _) _
  policy a attempts w := policy_requests a _ attempts w
  rounded delays hdelays := by
    refine ⟨fun attempts => ?_, fun before first rest hfirst hrest => ?_⟩
    · rw [requests_eq, (ofBudget_at budget).waitsOf_eq, (ofBudget_at (1000 * budget)).waitsOf_eq,
        List.map_map, List.map_map]
      refine List.map_congr_left fun j _ => ?_
      show (share delays (1000 * budget) j).isSome = (share delay budget j).isSome
      rw [share_isSome, share_isSome, decide_eq_decide]
      exact hdelays.total_lt_iff budget j
    · rw [waitsOf_lock delays (1000 * budget) hfirst hrest]
      exact lockWaits_lawful hdelays.longest _

end HostSql.Backoff
