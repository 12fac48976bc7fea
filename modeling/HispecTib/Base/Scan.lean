import HispecTib.Base.CString

/-!
# Numbers in fixed places of a text

A format is a list of pieces: fixed texts, and places for a number.

* `printInts`: the text with the numbers in their places, as `snprintf` prints it from `%d`s.
* `scanInts`: the numbers of a whole text.
* `scanInts_printInts`: what is printed is scanned back if no number runs into what follows it.
* `prefix_of_scanInts`: a text that is scanned starts as the format does.
-/

namespace CLib

inductive Piece where
  | text (s : List Byte)
  | int

def isDigit (b : Byte) : Bool := 48 ≤ b.toNat && b.toNat ≤ 57

/-! ## Printing -/

/-- How many numbers a format takes. -/
def places : List Piece → Nat
  | [] => 0
  | .text _ :: ps => places ps
  | .int :: ps => places ps + 1

def printInts : List Piece → List Int → List Byte
  | [], _ => []
  | .text s :: ps, is => s ++ printInts ps is
  | .int :: ps, i :: is => decimalInt i ++ printInts ps is
  | .int :: _, [] => []

/-- What the format prints does not start with a digit, whatever the numbers. -/
def stops : List Piece → Bool
  | [] => true
  | .text (c :: _) :: _ => !isDigit c
  | _ => false

/-- No number runs into what follows it. -/
def delimited : List Piece → Bool
  | [] => true
  | .text _ :: ps => delimited ps
  | .int :: ps => stops ps && delimited ps

/-! ## Scanning -/

/-- The digits at the start, as a number, and what is behind them. -/
def readNat (text : List Byte) : Option (Nat × List Byte) :=
  let digits := text.takeWhile isDigit
  if digits = [] then none
  else some (Nat.ofDigitChars 10 (digits.map fun b => Char.ofNat b.toNat) 0,
    text.dropWhile isDigit)

def readInt : List Byte → Option (Int × List Byte)
  | [] => none
  | c :: cs =>
    if c = chr '-' then (readNat cs).map fun r => (-(r.1 : Int), r.2)
    else (readNat (c :: cs)).map fun r => (r.1, r.2)

def scanInts : List Piece → List Byte → Option (List Int)
  | [], text => if text = [] then some [] else none
  | .text s :: ps, text => if s <+: text then scanInts ps (text.drop s.length) else none
  | .int :: ps, text => (readInt text).bind fun r => (scanInts ps r.2).map (r.1 :: ·)

theorem prefix_of_scanInts {s text : List Byte} {ps : List Piece} {is : List Int}
    (h : scanInts (.text s :: ps) text = some is) : s <+: text := by
  by_contra hno
  rw [scanInts, if_neg hno] at h
  cases h

/-! ## Round trip -/

section RoundTrip

variable {rest : List Byte}

theorem isDigit_of_mem_decimal {b : Byte} {n : Nat} (h : b ∈ decimal n) : isDigit b = true := by
  obtain ⟨hlo, hhi⟩ := decimal_range h
  simp [isDigit, hlo, hhi]

theorem decimal_ne_nil (n : Nat) : decimal n ≠ [] := fun h =>
  Nat.toDigits_ne_nil (List.map_eq_nil_iff.mp h)

/-- A number is read up to the first character that is no digit. -/
theorem readNat_decimal (n : Nat) (h : ∀ c ∈ rest.head?, isDigit c = false) :
    readNat (decimal n ++ rest) = some (n, rest) := by
  have hdigits : ∀ b ∈ decimal n, isDigit b = true := fun b => isDigit_of_mem_decimal
  have hstop : rest.takeWhile isDigit = [] ∧ rest.dropWhile isDigit = rest := by
    cases rest with
    | nil => exact ⟨rfl, rfl⟩
    | cons c rest => simp [h c rfl]
  simp [readNat, List.takeWhile_append_of_pos hdigits, List.dropWhile_append_of_pos hdigits, hstop,
    decimal_ne_nil, decimal_chars, Nat.ofDigitChars_toDigits]

theorem readInt_decimalInt (i : Int) (h : ∀ c ∈ rest.head?, isDigit c = false) :
    readInt (decimalInt i ++ rest) = some (i, rest) := by
  have hread := readNat_decimal i.natAbs h
  unfold decimalInt
  split_ifs with hi
  · rw [List.cons_append, readInt, if_pos rfl, hread, Option.map_some]
    simp only [Option.some.injEq, Prod.mk.injEq, and_true]
    omega
  · cases hn : decimal i.natAbs with
    | nil => exact absurd hn (decimal_ne_nil _)
    | cons c cs =>
      have hc : c ≠ chr '-' := by
        rintro rfl
        exact absurd (decimal_range (hn ▸ List.mem_cons_self)).1 (by decide)
      rw [hn, List.cons_append] at hread
      rw [List.cons_append, readInt, if_neg hc, hread, Option.map_some]
      simp only [Option.some.injEq, Prod.mk.injEq, and_true]
      omega

theorem stops_head {ps : List Piece} (h : stops ps = true) (is : List Int) :
    ∀ c ∈ (printInts ps is).head?, isDigit c = false := by
  match ps, h with
  | [], _ => exact fun c hc => by cases hc
  | .text (c :: s) :: ps, h =>
    intro d hd
    obtain rfl : c = d := Option.some.inj hd
    simpa [stops] using h

/-- **Round trip.** -/
theorem scanInts_printInts {ps : List Piece} (h : delimited ps = true) {is : List Int}
    (hlen : is.length = places ps) : scanInts ps (printInts ps is) = some is := by
  induction ps generalizing is with
  | nil =>
    obtain rfl := List.length_eq_zero_iff.mp hlen
    rfl
  | cons p ps ih =>
    cases p with
    | text s =>
      rw [printInts, scanInts, if_pos (List.prefix_append _ _), List.drop_left]
      exact ih h hlen
    | int =>
      obtain ⟨hstops, hrest⟩ := (Bool.and_eq_true _ _).mp h
      cases is with
      | nil => cases hlen
      | cons i is =>
        have hscan := ih hrest (Nat.succ.inj hlen)
        rw [printInts, scanInts, readInt_decimalInt i (stops_head hstops is), Option.bind_some,
          hscan, Option.map_some]

end RoundTrip

end CLib
