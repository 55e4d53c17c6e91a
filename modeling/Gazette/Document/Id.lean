import Gazette.Document.Basic

/-!
# The order of ids

Ids are compared by their length in bytes, and then byte by byte. Numbers without leading zeros are
thus compared as numbers, and no id has infinitely many below it: `rank` counts them.
-/

namespace Gazette

def idBytes (id : String) : List UInt8 := id.toByteArray.data.toList

def compareBytes : List UInt8 → List UInt8 → Ordering
  | [], [] => .eq
  | [], _ :: _ => .lt
  | _ :: _, [] => .gt
  | a :: as, b :: bs => if a < b then .lt else if b < a then .gt else compareBytes as bs

def compareIds (a b : String) : Ordering :=
  (compare (idBytes a).length (idBytes b).length).then (compareBytes (idBytes a) (idBytes b))

/-! ### Rank -/

/-- The place of some bytes in the order, when `start` is that of the bytes before them. -/
def rankFrom (start : Nat) (bytes : List UInt8) : Nat :=
  bytes.foldl (fun rank byte => rank * 256 + byte.toNat + 1) start

def rank (id : String) : Nat := rankFrom 0 (idBytes id)

theorem rankFrom_cons (start : Nat) (byte : UInt8) (bytes : List UInt8) :
    rankFrom start (byte :: bytes) = rankFrom (start * 256 + byte.toNat + 1) bytes := rfl

theorem rankFrom_lt_of_lt {start start' : Nat} (h : start < start') (a b : List UInt8)
    (hlen : a.length = b.length) : rankFrom start a < rankFrom start' b := by
  induction a generalizing start start' b with
  | nil =>
    cases b with
    | nil => exact h
    | cons => simp at hlen
  | cons x a ih =>
    cases b with
    | nil => simp at hlen
    | cons y b =>
      rw [rankFrom_cons, rankFrom_cons]
      have hx := x.toNat_lt
      exact ih (by omega) b (by simpa using hlen)

theorem rankFrom_lt_of_compareBytes {start : Nat} {a b : List UInt8} (hlen : a.length = b.length)
    (h : compareBytes a b = .lt) : rankFrom start a < rankFrom start b := by
  induction a generalizing start b with
  | nil =>
    cases b with
    | nil => simp [compareBytes] at h
    | cons => simp at hlen
  | cons x a ih =>
    cases b with
    | nil => simp at hlen
    | cons y b =>
      have hlen' : a.length = b.length := by simpa using hlen
      rw [rankFrom_cons, rankFrom_cons]
      simp only [compareBytes] at h
      split at h
      · rename_i hxy
        exact rankFrom_lt_of_lt (by have := UInt8.lt_iff_toNat_lt.mp hxy; omega) a b hlen'
      · split at h
        · cases h
        · rename_i hxy hyx
          have hle : x.toNat = y.toNat := by
            rw [UInt8.lt_iff_toNat_lt] at hxy hyx
            omega
          rw [hle]
          exact ih hlen' h

/-- The number of ids that are shorter than `length`, where the shortest one is not counted. -/
def shorter : (length : Nat) → Nat
  | 0 => 0
  | length + 1 => Nat.pow 256 length + shorter length

theorem shorter_succ (length : Nat) : shorter (length + 1) = 256 * shorter length + 1 := by
  induction length with
  | zero => rfl
  | succ n ih =>
    change Nat.pow 256 n * 256 + shorter (n + 1) = 256 * (Nat.pow 256 n + shorter n) + 1
    rw [ih]
    omega

theorem pow_succ_256 (n : Nat) : Nat.pow 256 (n + 1) = Nat.pow 256 n * 256 := rfl

theorem le_rankFrom (start : Nat) (bytes : List UInt8) :
    start * Nat.pow 256 bytes.length + shorter bytes.length ≤ rankFrom start bytes := by
  induction bytes generalizing start with
  | nil => simp [rankFrom, shorter]
  | cons x bytes ih =>
    rw [rankFrom_cons, List.length_cons, shorter, pow_succ_256]
    refine Nat.le_trans ?_ (ih _)
    have h : (start * 256 + 1) * Nat.pow 256 bytes.length ≤
        (start * 256 + x.toNat + 1) * Nat.pow 256 bytes.length :=
      Nat.mul_le_mul_right _ (by omega)
    rw [Nat.add_mul, Nat.mul_assoc, Nat.mul_comm 256] at h
    omega

theorem rankFrom_le (start : Nat) (bytes : List UInt8) :
    rankFrom start bytes ≤ start * Nat.pow 256 bytes.length + 256 * shorter bytes.length := by
  induction bytes generalizing start with
  | nil => simp [rankFrom, shorter]
  | cons x bytes ih =>
    rw [rankFrom_cons, List.length_cons, shorter, pow_succ_256]
    refine Nat.le_trans (ih _) ?_
    have hx := x.toNat_lt
    have h : (start * 256 + x.toNat + 1) * Nat.pow 256 bytes.length ≤
        (start * 256 + 256) * Nat.pow 256 bytes.length :=
      Nat.mul_le_mul_right _ (by omega)
    rw [Nat.add_mul _ 256, Nat.mul_assoc, Nat.mul_comm 256] at h
    omega

theorem shorter_lt {m n : Nat} (h : m < n) : 256 * shorter m < shorter n := by
  induction n with
  | zero => omega
  | succ n ih =>
    rw [shorter_succ]
    cases Nat.lt_or_ge m n with
    | inl hlt => have := ih hlt; omega
    | inr hge => rw [show m = n by omega]; omega

theorem rank_lt_of_compareIds {a b : String} (h : compareIds a b = .lt) : rank a < rank b := by
  rw [compareIds, Ordering.then_eq_lt, Nat.compare_eq_lt, Nat.compare_eq_eq] at h
  cases h with
  | inl hlen =>
    have ha := rankFrom_le 0 (idBytes a)
    have hb := le_rankFrom 0 (idBytes b)
    have := shorter_lt hlen
    simp only [rank]
    omega
  | inr hbytes => exact rankFrom_lt_of_compareBytes hbytes.1 hbytes.2

end Gazette
