import HostSql.Engine.Cursor
import HostSql.Proofs.Number.Size

/-!
# Values are in order

`Datum.compare` compares by cases: integers as integers, reals by their bits, an integer with a real
exactly, texts and bytes byte by byte, and anything else by its class. All the cases together are
one order, as they compare the class first, then the size of a number and then bytes
(`Datum.compare_eq`). That reals are ordered by their bits as they are by their size is what has to
be seen: the size of a double grows with its bits (`Binary64.unitsOf_strictMono`), and infinity has
a size as well, above that of every integer.

> `Datum.compare_transCmp`, `rowOrder_transCmp`: values, and rows under any collations, are in order.
-/

namespace HostSql

/-! ## Values -/

namespace Engine

open Binary64

namespace Datum

/-- What the order of values compares after the class: the size of a number, -/
def size : Datum → Int
  | integer n => n.toInt * unitsPerOne
  | real x => x.signedUnits
  | _ => 0

/-- and the bytes of a text under a collation or of a blob. -/
def comparedBytes (c : Collation) : Datum → List UInt8
  | text bytes => c.key bytes
  | blob bytes => bytes
  | _ => []

theorem compareBytes_eq : ∀ as bs, compareBytes as bs = Ord.compare as bs
  | [], [] => rfl
  | [], _ :: _ => rfl
  | _ :: _, [] => rfl
  | a :: as, b :: bs => by
    have hcons : Ord.compare (a :: as) (b :: bs) =
        (compareOfLessAndEq a b).then (Ord.compare as bs) := List.compareLex_cons_cons
    unfold compareBytes
    rw [compareBytes_eq as bs, hcons]
    unfold compareOfLessAndEq
    by_cases hlt : a < b
    · rw [if_pos hlt, if_pos hlt, Ordering.lt_then]
    · rw [if_neg hlt, if_neg hlt]
      by_cases heq : a = b
      · rw [if_pos heq, if_neg (heq ▸ UInt8.lt_irrefl a), Ordering.eq_then]
      · rw [if_neg heq, if_pos, Ordering.gt_then]
        exact UInt8.lt_of_le_of_ne (UInt8.not_lt.mp hlt) (Ne.symm heq)

theorem compareMixed_eq (a : Int64) (y : Binary64) :
    compareNumbers?.compareMixed a y = Ord.compare (a.toInt * unitsPerOne) y.signedUnits := by
  unfold compareNumbers?.compareMixed
  split
  · next h => exact (compare_infinite h a).symm
  · rfl

theorem compare_scaled (m n : Int) :
    Ord.compare (m * unitsPerOne) (n * unitsPerOne) = Ord.compare m n := by
  have hmono : StrictMono fun m : Int => m * unitsPerOne := by
    intro m n hlt
    have hone : (0 : Int) < unitsPerOne := by decide +kernel
    exact Int.mul_lt_mul_of_pos_right hlt hone
  rw [← cmp_eq_compare, ← cmp_eq_compare]
  exact hmono.cmp_map_eq m n

/-- The order by class, then by size, then by bytes. -/
def threefold (c : Collation) : Datum → Datum → Ordering :=
  compareLex (compareOn rank) (compareLex (compareOn size) (compareOn (comparedBytes c)))

section Threefold

variable (c : Collation) (a b : Datum)

theorem threefold_of_size (hrank : a.rank = b.rank)
    (hbytes : a.comparedBytes c = b.comparedBytes c) :
    threefold c a b = Ord.compare a.size b.size := by
  simp only [threefold, compareLex, compareOn, hrank, hbytes, Std.ReflCmp.compare_self,
    Ordering.eq_then, Ordering.then_eq]

theorem threefold_of_bytes (hrank : a.rank = b.rank) (hsize : a.size = b.size) :
    threefold c a b = compareBytes (a.comparedBytes c) (b.comparedBytes c) := by
  rw [compareBytes_eq]
  simp only [threefold, compareLex, compareOn, hrank, hsize, Std.ReflCmp.compare_self,
    Ordering.eq_then]

end Threefold

/-- Values are compared by class, then by size, then by bytes. -/
theorem compare_eq (c : Collation) (a b : Datum) : a.compare c b = threefold c a b := by
  cases a with
  | null => cases b <;> rfl
  | integer m =>
    cases b with
    | integer n => exact (compare_scaled _ _).symm.trans (threefold_of_size c (integer m) (integer n) rfl rfl).symm
    | real y => exact (compareMixed_eq m y).trans (threefold_of_size c (integer m) (real y) rfl rfl).symm
    | null | text _ | blob _ => rfl
  | real x =>
    cases b with
    | integer n =>
      refine Eq.trans ?_ (threefold_of_size c (real x) (integer n) rfl rfl).symm
      have hswap : Ord.compare x.signedUnits (n.toInt * unitsPerOne) =
          (Ord.compare (n.toInt * unitsPerOne) x.signedUnits).swap := Std.OrientedCmp.eq_swap
      exact (congrArg Ordering.swap (compareMixed_eq n x)).trans hswap.symm
    | real y => exact (compare_order x y).trans (threefold_of_size c (real x) (real y) rfl rfl).symm
    | null | text _ | blob _ => rfl
  | text as =>
    cases b with
    | text bs => exact (threefold_of_bytes c (text as) (text bs) rfl rfl).symm
    | null | integer _ | real _ | blob _ => rfl
  | blob as =>
    cases b with
    | blob bs => exact (threefold_of_bytes c (blob as) (blob bs) rfl rfl).symm
    | null | integer _ | real _ | text _ => rfl

instance compare_transCmp (c : Collation) : Std.TransCmp (Datum.compare c) := by
  have heq : Datum.compare c = threefold c := funext fun a => funext fun b => compare_eq c a b
  rw [heq]
  unfold threefold
  infer_instance

end Datum

/-! ## Rows by key -/

/-- The columns that a key is made of, each with its collation. -/
abbrev KeyColumns := List (Nat × Collation)

/-- The key of a row. -/
def KeyColumns.keyOf (keys : KeyColumns) (row : Row) : Row := keys.map fun k => row.getD k.1 .null

/-- The order of rows by key. -/
def KeyColumns.order (keys : KeyColumns) (a b : Row) : Ordering :=
  rowOrder (keys.map (·.2)) (keys.keyOf a) (keys.keyOf b)

theorem KeyColumns.order_nil : KeyColumns.order [] = fun _ _ => .eq := rfl

theorem KeyColumns.order_cons (i : Nat) (c : Collation) (keys : KeyColumns) :
    KeyColumns.order ((i, c) :: keys) =
      compareLex (fun a b => Datum.compare c (a.getD i .null) (b.getD i .null)) keys.order := by
  funext a b
  simp only [KeyColumns.order, KeyColumns.keyOf, List.map_cons, rowOrder, compareLex,
    List.headD_cons, List.drop_succ_cons, List.drop_zero]
  cases Datum.compare c (a.getD i .null) (b.getD i .null) <;> rfl

instance KeyColumns.order_transCmp (keys : KeyColumns) : Std.TransCmp keys.order := by
  induction keys with
  | nil =>
    rw [order_nil]
    exact { eq_swap := rfl, isLE_trans := fun _ _ => rfl }
  | cons k keys ih =>
    obtain ⟨i, c⟩ := k
    have hcolumn : Std.TransCmp fun a b : Row => Datum.compare c (a.getD i .null) (b.getD i .null) :=
      { eq_swap := Std.OrientedCmp.eq_swap, isLE_trans := Std.TransCmp.isLE_trans }
    rw [order_cons]
    infer_instance

end Engine

end HostSql
