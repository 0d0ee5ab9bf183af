import Mathlib

/-!
# Bytes and records

Numbers are kept on disk as little-endian or big-endian bytes, and records as the bytes
of their fields, one after the other.  A `Codec` is such a layout: how many bytes it takes,
how a value is written and how it is read back.  That reading undoes writing is part
of it, so that a layout put together with `seq`, `array` and `map` needs no proof of
its own.

A `Store` is a medium of bytes.  `readAt` and `writeAt` move whole lists of them.
-/

namespace Libparted.Library

abbrev Byte : Type := BitVec 8

/-! ## Little-endian numbers -/

/-- The `n` low bytes of `x`, the lowest first. -/
def leBytes : ℕ → ℕ → List Byte
  | 0, _ => []
  | n + 1, x => BitVec.ofNat 8 x :: leBytes n (x / 256)

/-- The number some bytes stand for. -/
def leNat : List Byte → ℕ
  | [] => 0
  | b :: bs => b.toNat + 256 * leNat bs

@[simp] theorem length_leBytes (n x : ℕ) : (leBytes n x).length = n := by
  induction n generalizing x with
  | zero => rfl
  | succ n ih => simp [leBytes, ih]

/-- Reading back what was written gives the number, as far as it fitted. -/
theorem leNat_leBytes (n x : ℕ) : leNat (leBytes n x) = x % 256 ^ n := by
  induction n generalizing x with
  | zero => simp [leBytes, leNat, Nat.mod_one]
  | succ n ih =>
      have hpow : 256 ^ (n + 1) = 256 * 256 ^ n := Nat.pow_succ'
      rw [hpow, Nat.mod_mul, leBytes, leNat, ih, BitVec.toNat_ofNat]

theorem leNat_lt (bytes : List Byte) : leNat bytes < 256 ^ bytes.length := by
  induction bytes with
  | nil => simp [leNat]
  | cons b bytes ih =>
      have hb : b.toNat < 256 := b.isLt
      rw [leNat, List.length_cons, Nat.pow_succ']
      omega

/-! ## Layouts -/

/-- A fixed layout of the values of `α`. -/
structure Codec (α : Type) where
  size : ℕ
  encode : α → List Byte
  decode : List Byte → α
  length_encode : ∀ a, (encode a).length = size
  /-- what follows a record does not matter for reading it -/
  decode_encode : ∀ a rest, decode (encode a ++ rest) = a

namespace Codec

variable {α β : Type}

attribute [simp] length_encode decode_encode

/-- A little-endian number of `n` bytes. -/
def uint (n : ℕ) : Codec (BitVec (8 * n)) where
  size := n
  encode x := leBytes n x.toNat
  decode bytes := BitVec.ofNat (8 * n) (leNat (bytes.take n))
  length_encode := by simp
  decode_encode := by
    intro x rest
    have hpow : 256 ^ n = 2 ^ (8 * n) := by rw [Nat.pow_mul]
    apply BitVec.eq_of_toNat_eq
    rw [List.take_left' (length_leBytes n x.toNat), leNat_leBytes, BitVec.toNat_ofNat, hpow,
      Nat.mod_mod, Nat.mod_eq_of_lt x.isLt]

/-- A big-endian number of `n` bytes. -/
def big (n : ℕ) : Codec (BitVec (8 * n)) where
  size := n
  encode x := (leBytes n x.toNat).reverse
  decode bytes := (uint n).decode (bytes.take n).reverse
  length_encode := by simp
  decode_encode := by
    intro x rest
    have hlen : (leBytes n x.toNat).reverse.length = n := by simp
    have := (uint n).decode_encode x []
    rw [List.append_nil] at this
    rw [List.take_left' hlen, List.reverse_reverse]
    exact this

/-- Two records, one after the other. -/
def seq (A : Codec α) (B : Codec β) : Codec (α × β) where
  size := A.size + B.size
  encode x := A.encode x.1 ++ B.encode x.2
  decode bytes := (A.decode bytes, B.decode (bytes.drop A.size))
  length_encode := by simp
  decode_encode := by
    intro x rest
    rw [List.append_assoc, A.decode_encode, List.drop_left' (A.length_encode x.1),
      B.decode_encode]

/-- The layout of a type that is another in disguise. -/
def map (A : Codec α) (f : α → β) (g : β → α) (h : ∀ b, f (g b) = b) : Codec β where
  size := A.size
  encode b := A.encode (g b)
  decode bytes := f (A.decode bytes)
  length_encode := fun b => A.length_encode (g b)
  decode_encode := by
    intro b rest
    rw [A.decode_encode, h]

/-- The bytes of some records of one kind. -/
def encodeAll (A : Codec α) (l : List α) : List Byte := l.flatMap A.encode

theorem length_encodeAll (A : Codec α) (l : List α) :
    (A.encodeAll l).length = l.length * A.size := by
  induction l with
  | nil => simp [encodeAll]
  | cons a l ih =>
      rw [encodeAll, List.flatMap_cons, List.length_append, A.length_encode]
      rw [encodeAll] at ih
      rw [ih, List.length_cons]
      ring

/-- The `i`-th of some records. -/
theorem decode_drop_encodeAll (A : Codec α) (l : List α) (i : ℕ) (hi : i < l.length)
    (rest : List Byte) : A.decode ((A.encodeAll l ++ rest).drop (i * A.size)) = l[i] := by
  induction l generalizing i with
  | nil => simp at hi
  | cons a l ih =>
      rw [encodeAll, List.flatMap_cons, ← encodeAll, List.append_assoc]
      cases i with
      | zero => rw [Nat.zero_mul, List.drop_zero, A.decode_encode, List.getElem_cons_zero]
      | succ i =>
          have hsplit : (i + 1) * A.size = A.size + i * A.size := by ring
          rw [hsplit, ← List.drop_drop, List.drop_left' (A.length_encode a),
            List.getElem_cons_succ]
          exact ih i (by simpa using hi)

/-- `n` records of one kind. -/
def array (A : Codec α) (n : ℕ) : Codec (Vector α n) where
  size := n * A.size
  encode v := A.encodeAll v.toList
  decode bytes := Vector.ofFn fun i : Fin n => A.decode (bytes.drop (i * A.size))
  length_encode := by
    intro v
    rw [length_encodeAll, Vector.length_toList]
  decode_encode := by
    intro v rest
    apply Vector.ext
    intro i hi
    rw [Vector.getElem_ofFn, A.decode_drop_encodeAll _ _ (by simpa using hi)]
    simp

end Codec

/-! ## Stores -/

/-- A medium of bytes. -/
abbrev Store : Type := ℕ → Byte

/-- The `n` bytes at `pos`. -/
def readAt (store : Store) (pos n : ℕ) : List Byte := (List.range n).map fun k => store (pos + k)

/-- The medium after some bytes have been written at `pos`. -/
def writeAt (store : Store) (pos : ℕ) (bytes : List Byte) : Store := fun k =>
  if pos ≤ k ∧ k < pos + bytes.length then bytes.getD (k - pos) 0 else store k

section Stores

variable {store : Store} {pos n p : ℕ} {bytes : List Byte}

@[simp] theorem length_readAt : (readAt store pos n).length = n := by
  simp [readAt]

theorem writeAt_of_mem {k : ℕ} (hk : pos ≤ k) (hk' : k < pos + bytes.length) :
    writeAt store pos bytes k = bytes.getD (k - pos) 0 := if_pos ⟨hk, hk'⟩

/-- Writing changes the bytes written and no others. -/
theorem writeAt_of_not_mem {k : ℕ} (hk : k < pos ∨ pos + bytes.length ≤ k) :
    writeAt store pos bytes k = store k := if_neg (by omega)

theorem readAt_writeAt_same (hn : bytes.length = n) :
    readAt (writeAt store pos bytes) pos n = bytes := by
  apply List.ext_getElem
  · simp [hn]
  · intro k hk hk'
    simp only [readAt, List.getElem_map, List.getElem_range]
    rw [writeAt_of_mem (by omega) (by omega), Nat.add_sub_cancel_left]
    simp [hk']

theorem readAt_congr {store' : Store} (h : ∀ k, pos ≤ k → k < pos + n → store' k = store k) :
    readAt store' pos n = readAt store pos n := by
  unfold readAt
  refine List.map_congr_left fun k hk => ?_
  rw [List.mem_range] at hk
  exact h _ (by omega) (by omega)

theorem readAt_writeAt_of_disjoint (h : pos + n ≤ p ∨ p + bytes.length ≤ pos) :
    readAt (writeAt store p bytes) pos n = readAt store pos n :=
  readAt_congr fun _ _ _ => writeAt_of_not_mem (by omega)

theorem readAt_add (m : ℕ) :
    readAt store pos (m + n) = readAt store pos m ++ readAt store (pos + m) n := by
  unfold readAt
  rw [List.range_add, List.map_append, List.map_map]
  congr 1
  refine List.map_congr_left fun k _ => ?_
  simp [Nat.add_assoc]

theorem drop_readAt (m : ℕ) (h : m ≤ n) :
    (readAt store pos n).drop m = readAt store (pos + m) (n - m) := by
  obtain ⟨k, rfl⟩ := Nat.exists_eq_add_of_le h
  rw [readAt_add, Nat.add_sub_cancel_left]
  exact List.drop_left' length_readAt

theorem readAt_const (b : Byte) : readAt (fun _ => b) pos n = List.replicate n b := by
  simp [readAt, List.map_const']

end Stores

/-! ## Fields -/

/-- A little-endian number at a fixed place of a record. -/
structure Field where
  pos : ℕ
  size : ℕ

namespace Field

variable {store : Store} {f g : Field}

def get (f : Field) (store : Store) : ℕ := leNat (readAt store f.pos f.size)

def put (f : Field) (x : ℕ) (store : Store) : Store := writeAt store f.pos (leBytes f.size x)

theorem get_put_self (x : ℕ) : f.get (f.put x store) = x % 256 ^ f.size := by
  rw [get, put, readAt_writeAt_same (length_leBytes _ _), leNat_leBytes]

theorem get_writeAt_of_disjoint {pos : ℕ} {bytes : List Byte}
    (h : f.pos + f.size ≤ pos ∨ pos + bytes.length ≤ f.pos) :
    f.get (writeAt store pos bytes) = f.get store := by
  rw [get, readAt_writeAt_of_disjoint h, get]

theorem get_put_of_disjoint (x : ℕ) (h : f.pos + f.size ≤ g.pos ∨ g.pos + g.size ≤ f.pos) :
    f.get (g.put x store) = f.get store :=
  get_writeAt_of_disjoint (by rwa [length_leBytes])

end Field

end Libparted.Library
