import Handover.Json.Text
import Mathlib.Data.List.TakeDrop

/-!
# Numbers within JSON text

What the reader makes of the numbers that the writer writes. A number is taken apart alike alone and
in front of a text that cannot continue it (`numeral?_append`). A whole number of 64 bits is read
back as itself (`numeral?_toString`, `json?_ofInt`). The text of a number of double precision is
taken apart to its end (`numeral?_writeDouble`); the number it is read as, `Double.reread?`, need
not be the one that was written.
-/

namespace Handover

namespace Json

/-- A text that cannot continue a number in front of it. -/
def EndsNumber (rest : List Char) : Prop :=
  ∀ c ∈ rest.head?, c.isDigit = false ∧ c ≠ '.' ∧ c ≠ 'e' ∧ c ≠ 'E' ∧ c ≠ '+' ∧ c ≠ '-'

theorem exponent?_cons {c : Char} (hc : c = 'e' ∨ c = 'E') (rest : List Char) :
    exponent? (c :: rest) =
      if (spanDigits (exponentSign rest).2).1.isEmpty then none
      else
        some (some (signed (exponentSign rest).1 (spanDigits (exponentSign rest).2).1),
          (spanDigits (exponentSign rest).2).2) := by
  simp only [exponent?, if_pos hc]

/-! ## A number in front of other text -/

section EndsNumber

variable {rest : List Char} (hrest : EndsNumber rest)
include hrest

theorem spanDigits_append (cs : List Char) :
    spanDigits (cs ++ rest) = ((spanDigits cs).1, (spanDigits cs).2 ++ rest) := by
  simp only [spanDigits, List.span_eq_takeWhile_dropWhile]
  induction cs with
  | nil =>
    cases rest with
    | nil => rfl
    | cons c rest => simp [(hrest c rfl).1]
  | cons c cs ih =>
    cases hc : c.isDigit with
    | true => simpa [hc] using ih
    | false => simp [hc]

theorem sign_append (cs : List Char) : sign (cs ++ rest) = ((sign cs).1, (sign cs).2 ++ rest) := by
  cases cs with
  | nil =>
    cases rest with
    | nil => rfl
    | cons c rest => simp [sign, (hrest c rfl).2.2.2.2.2]
  | cons c cs => by_cases hc : c = '-' <;> simp [sign, hc]

theorem exponentSign_append (cs : List Char) :
    exponentSign (cs ++ rest) = ((exponentSign cs).1, (exponentSign cs).2 ++ rest) := by
  cases cs with
  | nil =>
    cases rest with
    | nil => rfl
    | cons c rest => simp [exponentSign, (hrest c rfl).2.2.2.2]
  | cons c cs =>
    by_cases hminus : c = '-'
    · simp [exponentSign, hminus]
    · by_cases hplus : c = '+' <;> simp [exponentSign, hminus, hplus]

theorem fraction?_append (cs : List Char) :
    fraction? (cs ++ rest) = (fraction? cs).map fun f => (f.1, f.2 ++ rest) := by
  cases cs with
  | nil =>
    cases rest with
    | nil => rfl
    | cons c rest => simp [fraction?, (hrest c rfl).2.1]
  | cons c cs =>
    by_cases hc : c = '.'
    · subst hc
      simp only [List.cons_append, fraction?, spanDigits_append hrest]
      split <;> rfl
    · simp [fraction?, hc]

theorem exponent?_append (cs : List Char) :
    exponent? (cs ++ rest) = (exponent? cs).map fun e => (e.1, e.2 ++ rest) := by
  cases cs with
  | nil =>
    cases rest with
    | nil => rfl
    | cons c rest => simp [exponent?, (hrest c rfl).2.2.1, (hrest c rfl).2.2.2.1]
  | cons c cs =>
    by_cases hc : c = 'e' ∨ c = 'E'
    · rw [List.cons_append, exponent?_cons hc, exponent?_cons hc, exponentSign_append hrest]
      simp only [spanDigits_append hrest]
      split <;> rfl
    · simp [exponent?, hc]

/-- What follows a number does not change how it is taken apart. -/
theorem numeral?_append (cs : List Char) :
    numeral? (cs ++ rest) = (numeral? cs).map fun n => (n.1, n.2 ++ rest) := by
  simp only [numeral?, sign_append hrest, spanDigits_append hrest, fraction?_append hrest]
  split
  · rfl
  · cases fraction? (spanDigits (sign cs).2).2 with
    | none => rfl
    | some f =>
      simp only [Option.map_some, Option.bind_eq_bind, Option.bind_some, exponent?_append hrest]
      cases exponent? f.2 <;> rfl

end EndsNumber

/-! ## Digits -/

theorem spanDigits_of_digits {ds rest : List Char} (hds : ∀ c ∈ ds, c.isDigit = true)
    (hrest : ∀ c ∈ rest.head?, c.isDigit = false) : spanDigits (ds ++ rest) = (ds, rest) := by
  simp only [spanDigits, List.span_eq_takeWhile_dropWhile]
  rw [List.takeWhile_append_of_pos hds, List.dropWhile_append_of_pos hds]
  cases rest with
  | nil => simp
  | cons c rest => simp [hrest c rfl]

theorem isDigit_toDigits {n : Nat} {c : Char} (h : c ∈ Nat.toDigits 10 n) : c.isDigit = true :=
  Nat.isDigit_of_mem_toDigits (by decide) (by decide) h

theorem spanDigits_toDigits (n : Nat) :
    spanDigits (Nat.toDigits 10 n) = (Nat.toDigits 10 n, []) := by
  have h : spanDigits (Nat.toDigits 10 n ++ []) = (Nat.toDigits 10 n, []) :=
    spanDigits_of_digits (fun _ => isDigit_toDigits) (by simp)
  rwa [List.append_nil] at h

theorem digitsValue_toDigits (n : Nat) : digitsValue (Nat.toDigits 10 n) = n := by
  have h : digitsValue (Nat.toDigits 10 n) = Nat.ofDigitChars 10 (Nat.toDigits 10 n) 0 := by
    simp only [digitsValue, Nat.ofDigitChars_eq_foldl, Nat.mul_comm]
  rw [h, Nat.ofDigitChars_ten_toDigits]

/-- Only zero is written with a zero in front. -/
theorem head?_toDigits {n : Nat} (h : n ≠ 0) : (Nat.toDigits 10 n).head? ≠ some '0' := by
  induction n using Nat.strongRecOn with
  | ind n ih =>
    by_cases hlt : n < 10
    · rw [Nat.toDigits_of_lt_base hlt]
      have small : ∀ m < 10, m ≠ 0 → Nat.digitChar m ≠ '0' := by decide
      simpa using small n hlt h
    · rw [Nat.toDigits_of_base_le (by decide) (by omega), List.head?_append]
      have first := ih (n / 10) (by omega) (by omega)
      cases hd : (Nat.toDigits 10 (n / 10)).head? with
      | none => exact absurd (List.head?_eq_none_iff.1 hd) Nat.toDigits_ne_nil
      | some c => simpa [hd] using first

theorem not_leading_zero (n : Nat) :
    ¬ ((Nat.toDigits 10 n).isEmpty ∨
      ((Nat.toDigits 10 n).length > 1 ∧ (Nat.toDigits 10 n).head? = some '0')) := by
  rintro (h | ⟨hlen, hhead⟩)
  · exact Nat.toDigits_ne_nil (List.isEmpty_iff.1 h)
  · have : n = 0 := Decidable.byContradiction fun hn => head?_toDigits hn hhead
    simp [this] at hlen

/-! ## Whole numbers -/

/-- A whole number of 64 bits, signed or not. -/
def Fits (n : Int) : Prop :=
  IntRange.signed64.contains n = true ∨ IntRange.unsigned64.contains n = true

theorem sign_of_digits {ds : List Char} (h : ∀ c ∈ ds, c.isDigit = true) :
    sign ds = (false, ds) := by
  cases ds with
  | nil => rfl
  | cons c ds =>
    have : c ≠ '-' := by
      rintro rfl
      exact absurd (h '-' List.mem_cons_self) (by decide)
    simp [sign, this]

theorem toList_toString (n : Int) :
    (toString n).toList = (if n < 0 then ['-'] else []) ++ Nat.toDigits 10 n.natAbs := by
  rw [Int.toString_eq_repr, Int.repr_eq_if]
  split
  · next hn =>
    rw [if_neg (by omega), show n.toNat = n.natAbs by omega, Nat.repr_eq_ofList_toDigits,
      String.toList_ofList, List.nil_append]
  · next hn =>
    rw [if_pos (by omega), show (-n).toNat = n.natAbs by omega, Nat.repr_eq_ofList_toDigits,
      String.toList_append, String.toList_ofList (l := Nat.toDigits 10 n.natAbs)]
    rfl

theorem sign_toString (n : Int) :
    sign (toString n).toList = (decide (n < 0), Nat.toDigits 10 n.natAbs) := by
  rw [toList_toString]
  split
  · next hn => simp [sign, hn]
  · next hn => rw [List.nil_append, sign_of_digits fun _ => isDigit_toDigits, decide_eq_false hn]

/-- A whole number as it is written. -/
def Numeral.ofInt (n : Int) : Numeral :=
  ⟨decide (n < 0), Nat.toDigits 10 n.natAbs, none, none⟩

theorem numeral?_toString (n : Int) :
    numeral? (toString n).toList = some (.ofInt n, []) := by
  rw [numeral?, sign_toString]
  simp only [spanDigits_toDigits, if_neg (not_leading_zero _)]
  rfl

theorem signed_ofInt (n : Int) : signed (decide (n < 0)) (Nat.toDigits 10 n.natAbs) = n := by
  simp only [signed, digitsValue_toDigits, decide_eq_true_eq]
  split <;> omega

/-- The text of a whole number of 64 bits is read as that number. -/
theorem json?_ofInt {n : Int} (h : Fits n) : (Numeral.ofInt n).json? = some (int n) := by
  have hzero : ¬ (decide (n < 0) = true ∧ n = 0) := by
    rw [decide_eq_true_eq]
    omega
  simp only [Numeral.json?, Numeral.ofInt, signed_ofInt]
  exact if_pos ⟨trivial, trivial, by simpa [Fits] using h, hzero⟩

/-! ## Numbers of double precision -/

theorem exponentSign_toString (n : Int) :
    exponentSign (toString n).toList = (decide (n < 0), Nat.toDigits 10 n.natAbs) := by
  rw [← sign_toString]
  have hplus : (toString n).toList.head? ≠ some '+' := by
    rw [toList_toString]
    split
    · simp
    · intro h
      exact absurd (isDigit_toDigits (List.mem_of_mem_head? h)) (by decide)
  cases hcs : (toString n).toList with
  | nil => rfl
  | cons c cs =>
    rw [hcs] at hplus
    by_cases hc : c = '-' <;> simp_all [exponentSign, sign]

theorem exponent?_toString (n : Int) :
    exponent? ('e' :: (toString n).toList) = some (some n, []) := by
  rw [exponent?_cons (.inl rfl), exponentSign_toString, spanDigits_toDigits, signed_ofInt,
    if_neg (by simp)]

/-- Digits that may stand before the point of a number: there are some, and zero is the only number
that starts with a zero. -/
structure WholeDigits (cs : List Char) : Prop where
  ne_nil : cs ≠ []
  isDigit : ∀ c ∈ cs, c.isDigit = true
  head_ne : 1 < cs.length → cs.head? ≠ some '0'

/-- The form of a number of double precision apart from its sign: digits, then a point and digits
or nothing, then an exponent or nothing. -/
def DecimalText (cs : List Char) : Prop :=
  ∃ whole fraction exponent : List Char, cs = whole ++ (fraction ++ exponent) ∧
    WholeDigits whole ∧
    (fraction = [] ∨ ∃ ds, fraction = '.' :: ds ∧ ds ≠ [] ∧ ∀ c ∈ ds, c.isDigit = true) ∧
    (exponent = [] ∨ ∃ n : Int, exponent = 'e' :: (toString n).toList)

theorem isDigit_digits {d : Decimal} {c : Char} (h : c ∈ d.digits) : c.isDigit = true :=
  isDigit_toDigits h

theorem isDigit_zeros {count : Nat} {c : Char} (h : c ∈ zeros count) : c.isDigit = true := by
  rw [List.eq_of_mem_replicate h]
  rfl

/-- Zero is written with no zeros behind its digit: its exponent is zero, or so great that it stands
in the text. -/
def WritesZero (d : Decimal) : Prop :=
  d.significand = 0 → d.exponent = 0 ∨ 16 ≤ d.exponent

theorem head?_digits {d : Decimal} (h : d.significand ≠ 0) : d.digits.head? ≠ some '0' :=
  head?_toDigits h

theorem length_digits_of_eq_zero {d : Decimal} (h : d.significand = 0) : d.digits.length = 1 := by
  rw [Decimal.digits, h]
  rfl

theorem wholeDigits_append_zeros {d : Decimal} (h : d.significand = 0 → d.exponent = 0) :
    WholeDigits (d.digits ++ zeros d.exponent.toNat) where
  ne_nil := List.append_ne_nil_of_left_ne_nil Nat.toDigits_ne_nil _
  isDigit c hc := (List.mem_append.1 hc).elim isDigit_digits isDigit_zeros
  head_ne hlong := by
    have hne : d.significand ≠ 0 := by
      intro hzero
      simp [length_digits_of_eq_zero hzero, h hzero, zeros] at hlong
    have hhead := head?_digits hne
    cases hdigits : d.digits with
    | nil => exact absurd hdigits Nat.toDigits_ne_nil
    | cons c cs => simpa [hdigits] using hhead

theorem wholeDigits_take {d : Decimal} {count : Nat} (hcount : 0 < count)
    (h : 1 < count → d.significand ≠ 0) : WholeDigits (d.digits.take count) where
  ne_nil := by
    have hlength : 0 < d.digits.length := Nat.length_toDigits_pos
    apply List.ne_nil_of_length_pos
    rw [List.length_take]
    omega
  isDigit c hc := isDigit_digits (List.mem_of_mem_take hc)
  head_ne hlong := by
    rw [List.length_take] at hlong
    rw [List.head?_take, if_neg (by omega)]
    exact head?_digits (h (by omega))

theorem decimalText_writeDecimal {d : Decimal} (h : WritesZero d) :
    DecimalText (writeDecimal d) := by
  have hlen : 0 < d.digits.length := Nat.length_toDigits_pos
  unfold writeDecimal
  dsimp only
  split
  · next hpoint =>
    refine ⟨d.digits ++ zeros d.exponent.toNat, ['.', '0'], [], by simp,
      wholeDigits_append_zeros fun hzero => ?_, .inr ⟨['0'], rfl, by simp, by simp⟩, .inl rfl⟩
    have := h hzero
    omega
  split
  · next hnot hpoint =>
    refine ⟨d.digits.take (d.exponent + d.digits.length).toNat,
      '.' :: d.digits.drop (d.exponent + d.digits.length).toNat, [], by simp,
      wholeDigits_take (by omega) fun hmany hzero => ?_,
      .inr ⟨_, rfl, ?_, fun c hc => isDigit_digits (List.mem_of_mem_drop hc)⟩, .inl rfl⟩
    · have := length_digits_of_eq_zero hzero
      omega
    · apply List.ne_nil_of_length_pos
      rw [List.length_drop]
      omega
  split
  · refine ⟨['0'], '.' :: (zeros (-(d.exponent + d.digits.length)).toNat ++ d.digits), [], by simp,
      ⟨by simp, by simp, by simp⟩, .inr ⟨_, rfl, ?_, ?_⟩, .inl rfl⟩
    · exact List.append_ne_nil_of_right_ne_nil _ (List.ne_nil_of_length_pos hlen)
    · intro c hc
      exact (List.mem_append.1 hc).elim isDigit_zeros isDigit_digits
  · refine ⟨d.digits.take 1, if d.digits.length = 1 then [] else '.' :: d.digits.drop 1, _,
      List.append_assoc .., wholeDigits_take (by decide) fun hmany => absurd hmany (by decide), ?_,
      .inr ⟨_, rfl⟩⟩
    split
    · exact .inl rfl
    · refine .inr ⟨_, rfl, ?_, fun c hc => isDigit_digits (List.mem_of_mem_drop hc)⟩
      apply List.ne_nil_of_length_pos
      rw [List.length_drop]
      omega

theorem head?_append_of_form {fraction exponent : List Char}
    (hf : fraction = [] ∨ ∃ ds, fraction = '.' :: ds ∧ ds ≠ [] ∧ ∀ c ∈ ds, c.isDigit = true)
    (he : exponent = [] ∨ ∃ n : Int, exponent = 'e' :: (toString n).toList) :
    ∀ c ∈ (fraction ++ exponent).head?, c.isDigit = false := by
  obtain rfl | ⟨ds, rfl, -, -⟩ := hf <;> obtain rfl | ⟨n, rfl⟩ := he <;> simp

/-- A number of this form is taken apart to its end. -/
theorem numeral?_decimalText {cs : List Char} (h : DecimalText cs) (negative : Bool) :
    ∃ n : Numeral, numeral? ((if negative then ['-'] else []) ++ cs) = some (n, []) := by
  obtain ⟨whole, fraction, exponent, rfl, hwhole, hf, he⟩ := h
  have hsign : sign ((if negative then ['-'] else []) ++ (whole ++ (fraction ++ exponent))) =
      (negative, whole ++ (fraction ++ exponent)) := by
    cases negative with
    | true => rfl
    | false =>
      obtain ⟨c, whole, rfl⟩ := List.exists_cons_of_ne_nil hwhole.ne_nil
      have hc : c ≠ '-' := by
        rintro rfl
        exact absurd (hwhole.isDigit '-' List.mem_cons_self) (by decide)
      simp [sign, hc]
  have hspan : spanDigits (whole ++ (fraction ++ exponent)) = (whole, fraction ++ exponent) :=
    spanDigits_of_digits hwhole.isDigit (head?_append_of_form hf he)
  have hplain : ¬ (whole.isEmpty = true ∨ (whole.length > 1 ∧ whole.head? = some '0')) := by
    rintro (hempty | ⟨hlong, hzero⟩)
    · exact hwhole.ne_nil (List.isEmpty_iff.1 hempty)
    · exact hwhole.head_ne hlong hzero
  have hexp : ∃ n, exponent? exponent = some (n, []) := by
    obtain rfl | ⟨n, rfl⟩ := he
    · exact ⟨none, rfl⟩
    · exact ⟨some n, exponent?_toString n⟩
  have hfrac : ∃ ds, fraction? (fraction ++ exponent) = some (ds, exponent) := by
    obtain rfl | ⟨ds, rfl, hds, hdigits⟩ := hf
    · refine ⟨none, ?_⟩
      obtain rfl | ⟨n, rfl⟩ := he <;> rfl
    · refine ⟨some ds, ?_⟩
      have : spanDigits (ds ++ exponent) = (ds, exponent) :=
        spanDigits_of_digits hdigits (head?_append_of_form (.inl rfl) he)
      simp [fraction?, this, hds]
  obtain ⟨n, hexp⟩ := hexp
  obtain ⟨ds, hfrac⟩ := hfrac
  refine ⟨⟨negative, whole, ds, n⟩, ?_⟩
  rw [numeral?, hsign]
  simp only [hspan, if_neg hplain, hfrac, Option.bind_eq_bind, Option.bind_some, hexp]
  rfl

/-! ### The decimal of a number -/

theorem significand_strip_ne_zero {n : Nat} {d : Decimal} (h : d.significand ≠ 0) :
    (d.strip n).significand ≠ 0 := by
  induction n generalizing d with
  | zero => exact h
  | succ n ih =>
    rw [Decimal.strip]
    split
    · next hmod => exact ih (show d.significand / 10 ≠ 0 by omega)
    · exact h

theorem significand_ne_zero_of_readsBack {x : Double} (hx : x.isZero = false) {d : Decimal}
    (h : x.abs.readsBack d = true) : d.significand ≠ 0 := by
  intro hzero
  have hratio : (Double.decimalRatio d.significand d.exponent).1 = 0 := by
    rw [Double.decimalRatio, hzero]
    split <;> simp
  rw [Double.readsBack, hratio, Double.ofRatio?, if_pos rfl, decide_eq_true_eq] at h
  have hsignificand : x.significand = 0 :=
    (congrArg Double.significand (Option.some.inj h)).symm
  simp [Double.isZero, hsignificand] at hx

theorem shortest_eq (x : Double) :
    x.shortest =
      if x.isZero then ⟨0, 0⟩
      else
        (((List.range 17).findSome? fun n =>
          (Double.neighbours x.ratio.1 x.ratio.2 (n + 1)).find? x.abs.readsBack).getD
            ⟨0, 0⟩).strip 17 :=
  rfl

theorem writesZero_shortest (x : Double) : WritesZero x.shortest := by
  rw [shortest_eq]
  intro hzero
  split
  · exact .inl rfl
  · next hx =>
    rw [if_neg hx] at hzero
    -- seventeen digits are enough, but the decimal of a failed search would be written well too
    cases hfound : (List.range 17).findSome? fun n =>
        (Double.neighbours x.ratio.1 x.ratio.2 (n + 1)).find? x.abs.readsBack with
    | none => exact .inr (by decide)
    | some d =>
      obtain ⟨n, _, hd⟩ := List.exists_of_findSome?_eq_some hfound
      have hne := significand_ne_zero_of_readsBack (by simpa using hx) (List.find?_some hd)
      rw [hfound] at hzero
      exact absurd hzero (significand_strip_ne_zero hne)

theorem toList_writeDouble (x : Double) :
    (writeDouble x).toList = (if x.negative then ['-'] else []) ++ writeDecimal x.shortest := by
  rw [writeDouble, String.toList_append, String.toList_ofList]
  split <;> rfl

end Json

namespace Double

/-- A number of double precision as it is written. -/
def numeral (x : Double) : Json.Numeral :=
  ((Json.numeral? (Json.writeDouble x).toList).map Prod.fst).getD ⟨x.negative, [], none, none⟩

/-- What the text of a number of double precision reads as. -/
def reread? (x : Double) : Option Json :=
  x.numeral.json?

/-- Whether the text of a number of double precision reads as that number. -/
def Lasts (x : Double) : Prop :=
  x.reread? = some (.real x)

instance (x : Double) : Decidable x.Lasts :=
  inferInstanceAs (Decidable (x.reread? = some (.real x)))

end Double

namespace Json

theorem numeral?_writeDouble (x : Double) {rest : List Char} (hrest : EndsNumber rest) :
    numeral? ((writeDouble x).toList ++ rest) = some (x.numeral, rest) := by
  obtain ⟨n, h⟩ :=
    numeral?_decimalText (decimalText_writeDecimal (writesZero_shortest x)) x.negative
  rw [numeral?_append hrest, Double.numeral, toList_writeDouble, h]
  rfl

/-! ## The first character -/

/-- The text of a number starts with a minus or a digit. -/
def StartsNumber (cs : List Char) : Prop :=
  ∃ c rest, cs = c :: rest ∧ (c = '-' ∨ c.isDigit = true)

theorem startsNumber_append {cs : List Char} (h : StartsNumber cs) (rest : List Char) :
    StartsNumber (cs ++ rest) := by
  obtain ⟨c, cs, rfl, hc⟩ := h
  exact ⟨c, cs ++ rest, rfl, hc⟩

theorem startsNumber_signed (negative : Bool) {cs : List Char} (hne : cs ≠ [])
    (h : ∀ c ∈ cs.head?, c.isDigit = true) :
    StartsNumber ((if negative then ['-'] else []) ++ cs) := by
  cases negative with
  | true => exact ⟨'-', cs, rfl, .inl rfl⟩
  | false =>
    obtain ⟨c, rest, rfl⟩ := List.exists_cons_of_ne_nil hne
    exact ⟨c, rest, rfl, .inr (h c rfl)⟩

theorem startsNumber_toString (n : Int) : StartsNumber (toString n).toList := by
  have h := startsNumber_signed (decide (n < 0)) (Nat.toDigits_ne_nil (b := 10) (n := n.natAbs))
    fun c hc => isDigit_toDigits (List.mem_of_mem_head? hc)
  simp only [decide_eq_true_eq] at h
  rwa [toList_toString]

theorem startsNumber_writeDouble (x : Double) : StartsNumber (writeDouble x).toList := by
  obtain ⟨whole, _, _, htext, hwhole, -⟩ := decimalText_writeDecimal (writesZero_shortest x)
  rw [toList_writeDouble, htext, ← List.append_assoc]
  exact startsNumber_append (startsNumber_signed x.negative hwhole.ne_nil
    fun c hc => hwhole.isDigit c (List.mem_of_mem_head? hc)) _

end Json

end Handover
