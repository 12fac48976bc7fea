import Mathlib.Algebra.Group.Nat.Defs
import Mathlib.Data.List.TakeWhile
import Mathlib.Tactic.Common

/-!
# C strings and fixed-size character arrays

Memory from a pointer on is a `List Byte`: what lies behind the pointer, up to the end of what is
mapped. A **C string** is the part of it before the first NUL (`cstr`).

* `strcmp`, `strncmp`, `strcasecmp`, `strncasecmp`: one comparison loop (`cmpBy`) with the byte
  map and the bound as parameters; each has a lemma that says when the result is zero.
* `strchr`, `strcspn`, `strstr`, `memcpy`, `strncpy`, `snprintf` (of a text that is already
  formatted).
* `decimal`, `decimalInt`, `fixed4`: the texts of `%d` and `%.4f`.
* `Buf n`: a `char[n]`. The size is part of the type, so no operation can change it; a write past
  the end is clipped (in C it is undefined, and the users of this file stay in bounds).
-/

namespace CLib

abbrev Byte := UInt8

/-- ASCII text as bytes. -/
def str (s : String) : List Byte := s.toList.map fun c => UInt8.ofNat c.toNat

/-- The byte of an ASCII character. -/
def chr (c : Char) : Byte := UInt8.ofNat c.toNat

/-! ## Strings -/

/-- The C string at a pointer: the bytes before the first NUL. -/
def cstr (m : List Byte) : List Byte := m.takeWhile (· ≠ 0)

def strlen (m : List Byte) : Nat := (cstr m).length

@[simp] theorem cstr_nil : cstr [] = [] := rfl

@[simp] theorem cstr_zero_cons (m : List Byte) : cstr (0 :: m) = [] := by simp [cstr]

theorem cstr_cons {b : Byte} (h : b ≠ 0) (m : List Byte) : cstr (b :: m) = b :: cstr m := by
  simp [cstr, h]

theorem zero_notMem_cstr (m : List Byte) : (0 : Byte) ∉ cstr m := by
  intro h
  simpa using List.mem_takeWhile_imp h

theorem cstr_append {a : List Byte} (h : (0 : Byte) ∉ a) (b : List Byte) :
    cstr (a ++ b) = a ++ cstr b := by
  induction a with
  | nil => rfl
  | cons x a ih =>
    rw [List.mem_cons, not_or] at h
    rw [List.cons_append, cstr_cons (Ne.symm h.1), ih h.2, List.cons_append]

theorem cstr_eq_self {a : List Byte} (h : (0 : Byte) ∉ a) : cstr a = a := by
  simpa using cstr_append h []

@[simp] theorem cstr_cstr (m : List Byte) : cstr (cstr m) = cstr m :=
  cstr_eq_self (zero_notMem_cstr m)

theorem cstr_replicate_zero (k : Nat) (m : List Byte) (hm : cstr m = []) :
    cstr (List.replicate k 0 ++ m) = [] := by
  cases k with
  | zero => simpa using hm
  | succ k => simp [List.replicate_succ]

/-- What follows a string that is already ended, or that a NUL ends next, is not part of it. -/
theorem cstr_append_nul (a : List Byte) {m : List Byte} (hm : cstr m = []) :
    cstr (a ++ m) = cstr a := by
  induction a with
  | nil => exact hm
  | cons x a ih =>
    by_cases hx : x = 0
    · simp [hx]
    · rw [List.cons_append, cstr_cons hx, cstr_cons hx, ih]

theorem cstr_prefixOf (m : List Byte) : cstr m <+: m := List.takeWhile_prefix _

theorem strlen_le (m : List Byte) : strlen m ≤ m.length := (cstr_prefixOf m).length_le

/-- The first `strlen` bytes are the string. -/
theorem take_strlen (m : List Byte) : m.take (strlen m) = cstr m :=
  (List.prefix_iff_eq_take.mp (cstr_prefixOf m)).symm

/-- A pointer into the string points to the rest of the string. -/
theorem cstr_drop {m : List Byte} {k : Nat} (h : k ≤ strlen m) :
    cstr (m.drop k) = (cstr m).drop k := by
  obtain ⟨rest, hrest⟩ := cstr_prefixOf m
  have h0 : (0 : Byte) ∉ (cstr m).take k := fun h0 => zero_notMem_cstr m (List.mem_of_mem_take h0)
  have hl : ((cstr m).take k).length = k := List.length_take_of_le h
  have hm : m = (cstr m).take k ++ m.drop k := by
    conv_lhs => rw [← List.take_append_drop k m]
    rw [← hrest, List.take_append_of_le_length h]
    simp only [hrest]
  have hc := congrArg cstr hm
  rw [cstr_append h0] at hc
  conv_rhs => rw [hc]
  rw [List.drop_append_of_le_length hl.ge, List.drop_of_length_le hl.le, List.nil_append]

/-- The first byte of a string is the one that the pointer points to. -/
theorem cstr_headD (m : List Byte) : (cstr m).headD 0 = m.headD 0 := by
  cases m with
  | nil => rfl
  | cons x m =>
    by_cases hx : x = 0
    · rw [hx, cstr_zero_cons]
      rfl
    · rw [cstr_cons hx]
      rfl

/-- A NUL at the very end or not at all: the string is the longest NUL-free prefix. -/
theorem cstr_append_zero {a : List Byte} (h : (0 : Byte) ∉ a) (m : List Byte) :
    cstr (a ++ 0 :: m) = a := by
  rw [cstr_append h]; simp

/-! ## Comparison -/

/-- The comparison loop of `strcmp` and its relatives: at most `n` bytes, each mapped by `f`; it
stops at the first difference or at a NUL. Reading past the end of the list reads NUL. -/
def cmpBy (f : Byte → Byte) : Nat → List Byte → List Byte → Int
  | 0, _, _ => 0
  | n + 1, a, b =>
    if f (a.headD 0) ≠ f (b.headD 0) then (f (a.headD 0)).toNat - (f (b.headD 0)).toNat
    else if a.headD 0 = 0 then 0
    else cmpBy f n a.tail b.tail

/-- `tolower` of the C locale. -/
def tolower (c : Byte) : Byte := if 65 ≤ c ∧ c ≤ 90 then c + 32 else c

def strncmp (a b : List Byte) (n : Nat) : Int := cmpBy id n a b

def strcmp (a b : List Byte) : Int := cmpBy id (a.length + 1) a b

def strncasecmp (a b : List Byte) (n : Nat) : Int := cmpBy tolower n a b

def strcasecmp (a b : List Byte) : Int := cmpBy tolower (a.length + 1) a b

theorem tolower_eq_zero (c : Byte) : tolower c = 0 ↔ c = 0 := by
  unfold tolower
  split <;> rename_i h
  · have := UInt8.le_iff_toNat_le.mp h.1
    have := UInt8.le_iff_toNat_le.mp h.2
    simp only [← UInt8.toNat_inj, UInt8.toNat_add, UInt8.reduceToNat] at *
    omega
  · rfl

theorem byte_sub_ne_zero {x y : Byte} (h : x ≠ y) : (x.toNat : Int) - y.toNat ≠ 0 := by
  intro e
  exact h (UInt8.toNat_inj.mp (by omega))

/-- When the comparison finds no difference: the first `n` bytes of the strings agree under `f`. -/
theorem cmpBy_eq_zero {f : Byte → Byte} (hf : ∀ c, f c = 0 ↔ c = 0) (n : Nat) (a b : List Byte) :
    cmpBy f n a b = 0 ↔ ((cstr a).map f).take n = ((cstr b).map f).take n := by
  induction n generalizing a b with
  | zero => simp [cmpBy]
  | succ n ih =>
    have h0 : f 0 = 0 := (hf 0).mpr rfl
    rcases a with _ | ⟨x, a⟩ <;> rcases b with _ | ⟨y, b⟩
    · simp [cmpBy]
    · by_cases hy : y = 0
      · simp [cmpBy, hy]
      · have hfy : 0 ≠ f y := fun h => hy ((hf y).mp h.symm)
        have hsub := byte_sub_ne_zero hfy
        rw [← h0] at hfy hsub
        simp [cmpBy, hfy, hsub, cstr_cons hy]
    · by_cases hx : x = 0
      · simp [cmpBy, hx]
      · have hfx : f x ≠ 0 := fun h => hx ((hf x).mp h)
        have hsub := byte_sub_ne_zero hfx
        rw [← h0] at hfx hsub
        simp [cmpBy, hfx, hsub, cstr_cons hx]
    · by_cases hxy : f x = f y
      · by_cases hx : x = 0
        · have hy : y = 0 := (hf y).mp (by rw [← hxy, hx, h0])
          simp [cmpBy, hx, hy]
        · have hy : y ≠ 0 := fun hy => hx ((hf x).mp (by rw [hxy, hy, h0]))
          simp [cmpBy, hxy, hx, cstr_cons hx, cstr_cons hy, ih]
      · have hstr : ¬ (((cstr (x :: a)).map f).take (n + 1) =
            ((cstr (y :: b)).map f).take (n + 1)) := by
          by_cases hx : x = 0 <;> by_cases hy : y = 0
          · exact absurd (by rw [hx, hy]) hxy
          · simp [hx, cstr_cons hy]
          · simp [hy, cstr_cons hx]
          · simp [cstr_cons hx, cstr_cons hy, hxy]
        simp [cmpBy, hxy, byte_sub_ne_zero hxy, hstr]

theorem strncmp_eq_zero (a b : List Byte) (n : Nat) :
    strncmp a b n = 0 ↔ (cstr a).take n = (cstr b).take n := by
  have h := cmpBy_eq_zero (f := id) (fun _ => Iff.rfl) n a b
  rwa [List.map_id, List.map_id] at h

/-- Equal texts under a map that keeps lengths agree within a bound that covers the first. -/
theorem take_eq_take_iff {α : Type} {l m : List α} {n : Nat} (h : l.length < n) :
    l.take n = m.take n ↔ l = m := by
  constructor
  · intro e
    rw [List.take_of_length_le (by omega)] at e
    have hm : m.length < n := by
      have := congrArg List.length e
      rw [List.length_take] at this
      omega
    rwa [List.take_of_length_le (by omega)] at e
  · rintro rfl; rfl

theorem strcmp_eq_zero (a b : List Byte) : strcmp a b = 0 ↔ cstr a = cstr b := by
  have h := cmpBy_eq_zero (f := id) (fun _ => Iff.rfl) (a.length + 1) a b
  rw [List.map_id, List.map_id, take_eq_take_iff (Nat.lt_succ_of_le (strlen_le a))] at h
  exact h

/-- The strings are the same text up to the case of ASCII letters. -/
def EqNoCase (a b : List Byte) : Prop := a.map tolower = b.map tolower

instance (a b : List Byte) : Decidable (EqNoCase a b) :=
  inferInstanceAs (Decidable (a.map tolower = b.map tolower))

theorem EqNoCase.symm {a b : List Byte} (h : EqNoCase a b) : EqNoCase b a := Eq.symm h

theorem EqNoCase.trans {a b c : List Byte} (h : EqNoCase a b) (h' : EqNoCase b c) :
    EqNoCase a c := Eq.trans h h'

/-- Character by character. -/
theorem eqNoCase_iff {a b : List Byte} : EqNoCase a b ↔ a.length = b.length ∧
    ∀ i (h : i < a.length) (h' : i < b.length), tolower a[i] = tolower b[i] := by
  rw [EqNoCase, List.ext_getElem_iff]
  simp only [List.length_map, List.getElem_map]

theorem strcasecmp_eq_zero (a b : List Byte) :
    strcasecmp a b = 0 ↔ EqNoCase (cstr a) (cstr b) := by
  have h := cmpBy_eq_zero tolower_eq_zero (a.length + 1) a b
  rw [take_eq_take_iff (by rw [List.length_map]; exact Nat.lt_succ_of_le (strlen_le a))] at h
  exact h

/-- A bound past the end of the second string makes `strncasecmp` a comparison of whole strings. -/
theorem strncasecmp_eq_zero {a b : List Byte} {n : Nat} (h : (cstr b).length < n) :
    strncasecmp a b n = 0 ↔ EqNoCase (cstr a) (cstr b) := by
  have hc := cmpBy_eq_zero tolower_eq_zero n a b
  rw [eq_comm (a := ((cstr a).map tolower).take n),
    take_eq_take_iff (by rwa [List.length_map])] at hc
  exact hc.trans eq_comm

/-! ## Searching and copying -/

/-- The index of the first `c` in the string, for `c` other than NUL. -/
def strchr (m : List Byte) (c : Byte) : Option Nat := (cstr m).findIdx? (· == c)

theorem strchr_eq {m a b : List Byte} {c : Byte} (h : cstr m = a ++ c :: b) (ha : c ∉ a) :
    strchr m c = some a.length := by
  rw [strchr, h, List.findIdx?_append, List.findIdx?_eq_none_iff.mpr]
  · simp [List.findIdx?_cons]
  · intro x hx
    simpa using fun hxc : x = c => ha (hxc ▸ hx)

theorem strchr_eq_none {m : List Byte} {c : Byte} (h : c ∉ cstr m) : strchr m c = none :=
  List.findIdx?_eq_none_iff.mpr fun x hx => by simpa using fun hxc : x = c => h (hxc ▸ hx)

/-- The length of the initial part of the string without a byte of `reject`. -/
def strcspn (m reject : List Byte) : Nat := ((cstr m).takeWhile (· ∉ reject)).length

/-- The first index of `l` at which `needle` starts. -/
def firstInfix (needle l : List Byte) : Option Nat := l.tails.findIdx? needle.isPrefixOf

def strstr (m needle : List Byte) : Option Nat := firstInfix (cstr needle) (cstr m)

theorem firstInfix_eq_zero {needle l : List Byte} (h : needle <+: l) :
    firstInfix needle l = some 0 := by
  cases l with
  | nil => rw [List.prefix_nil.mp h]; rfl
  | cons x l =>
    rw [firstInfix, List.tails, List.findIdx?_cons, if_pos (List.isPrefixOf_iff_prefix.mpr h)]

/-- Where the needle does not start, the search moves on by one. -/
theorem firstInfix_cons {needle l : List Byte} {x : Byte} (h : ¬ needle <+: x :: l) :
    firstInfix needle (x :: l) = (firstInfix needle l).map (· + 1) := by
  have hpre : needle.isPrefixOf (x :: l) = false :=
    Bool.eq_false_iff.mpr fun h' => h (List.isPrefixOf_iff_prefix.mp h')
  rw [firstInfix, List.tails, List.findIdx?_cons, hpre]
  rfl

/-- A text without the first byte of the needle is skipped as a whole. -/
theorem firstInfix_append {needle a b : List Byte} {q : Byte} (h : q ∉ a) :
    firstInfix (q :: needle) (a ++ b) = (firstInfix (q :: needle) b).map (· + a.length) := by
  induction a with
  | nil => exact Option.map_id'.symm
  | cons x a ih =>
    obtain ⟨hx, ha⟩ := List.ne_and_not_mem_of_not_mem_cons h
    have hno : ¬ q :: needle <+: x :: (a ++ b) := fun hpre => hx (List.cons_prefix_cons.mp hpre).1
    rw [List.cons_append, firstInfix_cons hno, ih ha, Option.map_map]
    rfl

/-- Two texts are compared up to their first `q`, and then behind it. -/
theorem prefix_of_append_cons {a c u t : List Byte} {q : Byte} (ha : q ∉ a) (hc : q ∉ c)
    (h : a ++ q :: u <+: c ++ q :: t) : a = c ∧ u <+: t := by
  induction a generalizing c with
  | nil =>
    cases c with
    | nil => exact ⟨rfl, (List.cons_prefix_cons.mp h).2⟩
    | cons y c => exact absurd ((List.cons_prefix_cons.mp h).1 ▸ List.mem_cons_self) hc
  | cons x a ih =>
    cases c with
    | nil => exact absurd ((List.cons_prefix_cons.mp h).1 ▸ List.mem_cons_self) ha
    | cons y c =>
      obtain ⟨rfl, hrest⟩ := List.cons_prefix_cons.mp h
      obtain ⟨rfl, hu⟩ := ih (fun hm => ha (List.mem_cons_of_mem _ hm))
        (fun hm => hc (List.mem_cons_of_mem _ hm)) hrest
      exact ⟨rfl, hu⟩

/-- A part between two `q` that is not the one of the needle is skipped. -/
theorem firstInfix_part {w u a t : List Byte} {q : Byte} (hw : q ∉ w) (ha : q ∉ a)
    (hne : a = w → ¬ u <+: t) :
    firstInfix (q :: (w ++ q :: u)) (q :: (a ++ q :: t)) =
      (firstInfix (q :: (w ++ q :: u)) (q :: t)).map (· + (a.length + 1)) := by
  have hno : ¬ q :: (w ++ q :: u) <+: q :: (a ++ q :: t) := fun hpre => by
    obtain ⟨heq, hu⟩ := prefix_of_append_cons hw ha (List.cons_prefix_cons.mp hpre).2
    exact hne heq.symm hu
  rw [firstInfix_cons hno, firstInfix_append ha, Option.map_map]
  rfl

/-- `snprintf` of an already formatted text into `size` bytes: what the buffer holds before the
terminating NUL. -/
def snprintf (size : Nat) (text : List Byte) : List Byte := text.take (size - 1)

/-! ## Numbers as text -/

/-- The text of an unsigned number. -/
def decimal (n : Nat) : List Byte := (Nat.toDigits 10 n).map chr

/-- `%d`. -/
def decimalInt (i : Int) : List Byte :=
  if i < 0 then chr '-' :: decimal i.natAbs else decimal i.natAbs

theorem decimal_length_le {n k : Nat} (hk : 0 < k) (h : n < 10 ^ k) : (decimal n).length ≤ k := by
  rw [decimal, List.length_map]
  exact (Nat.length_toDigits_le_iff (by decide) hk).mpr h

/-- The characters of a number are digits, and bytes keep them apart. -/
theorem toDigits_range {c : Char} {n : Nat} (h : c ∈ Nat.toDigits 10 n) :
    (48 ≤ c.toNat ∧ c.toNat ≤ 57) ∧ (chr c).toNat = c.toNat := by
  have hd := Nat.isDigit_of_mem_toDigits (by decide) (by decide) h
  rw [Char.isDigit, Bool.and_eq_true, decide_eq_true_eq, decide_eq_true_eq] at hd
  have hhi : c.toNat ≤ 57 := hd.2
  exact ⟨hd, Nat.mod_eq_of_lt (by omega)⟩

theorem decimal_range {b : Byte} {n : Nat} (h : b ∈ decimal n) : 48 ≤ b.toNat ∧ b.toNat ≤ 57 := by
  obtain ⟨c, hc, rfl⟩ := List.mem_map.mp h
  obtain ⟨hrange, hchr⟩ := toDigits_range hc
  rwa [hchr]

theorem zero_notMem_decimal (n : Nat) : (0 : Byte) ∉ decimal n := fun h =>
  absurd (decimal_range h).1 (by decide)

theorem decimal_chars (n : Nat) :
    (decimal n).map (fun b => Char.ofNat b.toNat) = Nat.toDigits 10 n := by
  rw [decimal, List.map_map]
  refine (List.map_congr_left fun c hc => ?_).trans (List.map_id _)
  simp only [Function.comp_apply, (toDigits_range hc).2, Char.ofNat_toNat, id]

theorem decimalInt_length_le {i : Int} {k : Nat} (hk : 0 < k) (h : i.natAbs < 10 ^ k) :
    (decimalInt i).length ≤ k + 1 := by
  have hlen := decimal_length_le hk h
  unfold decimalInt
  split
  · exact Nat.succ_le_succ hlen
  · exact Nat.le_succ_of_le hlen

theorem zero_notMem_decimalInt (i : Int) : (0 : Byte) ∉ decimalInt i := by
  have h0 := zero_notMem_decimal i.natAbs
  unfold decimalInt
  split
  · rw [List.mem_cons, not_or]
    exact ⟨by decide, h0⟩
  · exact h0

/-- The nearest integer to a nonnegative rational, ties to even. -/
def roundHalfEven (q : Rat) : Nat :=
  let f := q.floor.toNat
  let r := q - f
  if r > 1 / 2 ∨ (r = 1 / 2 ∧ f % 2 = 1) then f + 1 else f

/-- `%.4f`. -/
def fixed4 (q : Rat) : List Byte :=
  let n := roundHalfEven (q.abs * 10000)
  let frac := decimal (n % 10000)
  (if q < 0 then [chr '-'] else []) ++ decimal (n / 10000) ++ [chr '.'] ++
    List.replicate (4 - frac.length) (chr '0') ++ frac

/-! ## Fixed-size arrays -/

/-- A `char[n]`. -/
structure Buf (n : Nat) where
  data : List Byte
  size_eq : data.length = n
deriving DecidableEq

namespace Buf

variable {n : Nat}

/-- The zero-initialised array. -/
def zero (n : Nat) : Buf n := ⟨List.replicate n 0, List.length_replicate⟩

instance : Inhabited (Buf n) := ⟨zero n⟩

/-- The C string at the start of the array. -/
def cstr (b : Buf n) : List Byte := CLib.cstr b.data

/-- `bytes` stored from index `off` on; what does not fit is not stored. -/
def write (b : Buf n) (off : Nat) (bytes : List Byte) : Buf n :=
  ⟨(b.data.take off ++ bytes ++ b.data.drop (off + bytes.length)).take n, by
    have := b.size_eq
    simp only [List.length_take, List.length_append, List.length_drop]
    omega⟩

/-- `memcpy(b, src, k)`. -/
def memcpy (b : Buf n) (src : List Byte) (k : Nat) : Buf n := b.write 0 (src.take k)

/-- `strncpy(b, src, k)`: at most `k` bytes of the string, the rest of the `k` bytes NUL. -/
def strncpy (b : Buf n) (src : List Byte) (k : Nat) : Buf n :=
  b.write 0 ((CLib.cstr src).take k ++ List.replicate (k - strlen src) 0)

theorem write_data_of_le (b : Buf n) {off : Nat} {bytes : List Byte} (h : off + bytes.length ≤ n) :
    (b.write off bytes).data = b.data.take off ++ bytes ++ b.data.drop (off + bytes.length) := by
  have := b.size_eq
  refine List.take_of_length_le ?_
  simp only [List.length_append, List.length_take, List.length_drop]
  omega

theorem memcpy_data (b : Buf n) {src : List Byte} {k : Nat} (hk : k ≤ src.length) (hn : k ≤ n) :
    (b.memcpy src k).data = src.take k ++ b.data.drop k := by
  have hl : (src.take k).length = k := by rw [List.length_take]; omega
  unfold memcpy
  rw [write_data_of_le _ (by omega), hl]
  simp

theorem strncpy_data (b : Buf n) (src : List Byte) {k : Nat} (hn : k ≤ n) :
    (b.strncpy src k).data =
      (CLib.cstr src).take k ++ List.replicate (k - strlen src) 0 ++ b.data.drop k := by
  have hl : ((CLib.cstr src).take k ++ List.replicate (k - strlen src) (0 : Byte)).length = k := by
    simp only [List.length_append, List.length_take, List.length_replicate, strlen]
    omega
  unfold strncpy
  rw [write_data_of_le _ (by omega), hl]
  simp

theorem memcpy_zero (b : Buf n) (src : List Byte) : b.memcpy src 0 = b := by
  obtain ⟨data, hsize⟩ := b
  simp [memcpy, write, ← hsize]

/-- A copy with a NUL stored behind it changes no other byte. -/
theorem memcpy_write_data (b : Buf n) {src : List Byte} {k : Nat} (hk : k ≤ src.length)
    (hn : k < n) : ((b.memcpy src k).write k [0]).data = src.take k ++ 0 :: b.data.drop (k + 1) := by
  have hl : (src.take k).length = k := by rw [List.length_take]; omega
  rw [write_data_of_le _ (Nat.succ_le_of_lt hn), memcpy_data b hk (by omega),
    List.take_append_of_le_length (by omega), List.take_of_length_le (by omega),
    List.drop_append, List.drop_of_length_le (by simp [hl]), List.drop_drop, hl]
  simp

/-- A copy with a NUL stored behind it holds exactly the copied string. -/
theorem cstr_memcpy_write (b : Buf n) {src : List Byte} {k : Nat} (hk : k ≤ src.length)
    (hn : k < n) (h0 : (0 : Byte) ∉ src.take k) :
    ((b.memcpy src k).write k [0]).cstr = src.take k := by
  unfold cstr
  rw [memcpy_write_data b hk hn]
  exact cstr_append_zero h0 _

theorem cstr_strncpy (b : Buf n) (src : List Byte) {k : Nat} (hn : k ≤ n)
    (hb : CLib.cstr (b.data.drop k) = []) :
    (b.strncpy src k).cstr = (CLib.cstr src).take k := by
  have h0 : (0 : Byte) ∉ (CLib.cstr src).take k :=
    fun h => zero_notMem_cstr src (List.mem_of_mem_take h)
  unfold cstr
  rw [strncpy_data b src hn, List.append_assoc, cstr_append h0, cstr_replicate_zero _ _ hb,
    List.append_nil]

theorem zero_drop_cstr (n k : Nat) : CLib.cstr ((zero n).data.drop k) = [] := by
  simpa [zero] using cstr_replicate_zero (n - k) [] rfl

/-- `strncpy` leaves the bytes from the bound on as they are. -/
theorem strncpy_drop (b : Buf n) (src : List Byte) {k : Nat} (hn : k ≤ n) :
    (b.strncpy src k).data.drop k = b.data.drop k := by
  have hl : ((CLib.cstr src).take k ++ List.replicate (k - strlen src) (0 : Byte)).length = k := by
    simp only [List.length_append, List.length_take, List.length_replicate, strlen]
    omega
  rw [strncpy_data b src hn, List.drop_append_of_le_length (by omega),
    List.drop_of_length_le (by omega),
    List.nil_append]

/-- `strncpy` up to the last byte and a NUL there overwrite the whole array. -/
theorem strncpy_write_last (b b' : Buf (n + 1)) (src : List Byte) :
    (b.strncpy src n).write n [0] = (b'.strncpy src n).write n [0] := by
  have hl : ((CLib.cstr src).take n ++ List.replicate (n - strlen src) (0 : Byte)).length = n := by
    simp only [List.length_append, List.length_take, List.length_replicate, strlen]
    omega
  have hdata (c : Buf (n + 1)) : ((c.strncpy src n).write n [0]).data =
      (CLib.cstr src).take n ++ List.replicate (n - strlen src) 0 ++ [0] := by
    have hend : (c.strncpy src n).data.length ≤ n + 1 := (c.strncpy src n).size_eq.le
    rw [write_data_of_le _ (by simp), strncpy_data c src (Nat.le_succ n),
      List.take_append_of_le_length hl.ge, List.take_of_length_le hl.le,
      ← strncpy_data c src (Nat.le_succ n), List.drop_of_length_le (by simpa using hend),
      List.append_nil]
  have heq := (hdata b).trans (hdata b').symm
  cases h : (b.strncpy src n).write n [0] with
  | mk data size =>
    cases h' : (b'.strncpy src n).write n [0] with
    | mk data' size' =>
      rw [h, h'] at heq
      cases heq
      rfl

end Buf

end CLib
