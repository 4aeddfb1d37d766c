import DesignSystem.Json.Source
import DesignSystem.Json.Printer
import Mathlib.Data.List.Basic
/-!
# The texts of numbers

`Numeral` is the shape of a number's text: a sign, digits without a leading zero, a fraction and an
exponent. Whatever `Number.write` writes has it (`numeral_write`), and whatever has it is read as
one number (`Numeral.ofChars`) that is a single word of the text around it (`Numeral.mem`).

For integers the reader goes back the whole way: the number read is the number written
(`number?_write_int`). For floating-point numbers it need not be.
-/

namespace DesignSystem.Json

/-! ### Runs of digits -/

/-- All characters are decimal digits. -/
def AllDigits (cs : List Char) : Prop :=
  ∀ c ∈ cs, c.isDigit = true

theorem AllDigits.append {cs ds : List Char} (hcs : AllDigits cs) (hds : AllDigits ds) :
    AllDigits (cs ++ ds) := by
  intro c hc
  rcases List.mem_append.mp hc with hc | hc
  · exact hcs c hc
  · exact hds c hc

theorem allDigits_toDigits (n : Nat) : AllDigits (Nat.toDigits 10 n) :=
  fun _ hc => Nat.isDigit_of_mem_toDigits (by omega) (by omega) hc

theorem allDigits_zeros (count : Nat) : AllDigits (DecimalLayout.zeros count) := by
  intro c hc
  rw [List.eq_of_mem_replicate hc]
  rfl

theorem toNat_of_isDigit {c : Char} (h : c.isDigit = true) : 48 ≤ c.toNat ∧ c.toNat ≤ 57 := by
  simpa [Char.isDigit, UInt32.le_iff_toNat_le] using h

/-- The values of digits. -/
def digitValues (cs : List Char) : List Nat :=
  cs.map fun c => c.toNat - 48

theorem digit?_of_isDigit {c : Char} (h : c.isDigit = true) : digit? c = some (c.toNat - 48) := by
  rw [digit?, if_pos]
  simpa [Char.isDigit, Char.le_def, UInt32.le_iff_toNat_le] using h

theorem digit?_of_not_isDigit {c : Char} (h : c.isDigit = false) : digit? c = none := by
  rw [digit?, if_neg]
  intro hRange
  have hDigit : c.isDigit = true := by
    simpa [Char.isDigit, Char.le_def, UInt32.le_iff_toNat_le] using hRange
  rw [h] at hDigit
  cases hDigit

/-- Nothing follows, or something other than a digit. -/
def NoDigit (rest : List Char) : Prop :=
  ∀ c ∈ rest.head?, c.isDigit = false

theorem noDigit_nil : NoDigit [] :=
  nofun

/-- The run of digits in front ends where the digits end. -/
theorem digitRun_append {cs rest : List Char} (hDigits : AllDigits cs) (hRest : NoDigit rest) :
    digitRun (cs ++ rest) = (digitValues cs, rest) := by
  induction cs with
  | nil =>
    cases rest with
    | nil => rfl
    | cons c rest =>
      rw [List.nil_append, digitRun, digit?_of_not_isDigit (hRest c rfl)]
      rfl
  | cons c cs ih =>
    have hTail := ih fun d hd => hDigits d (List.mem_cons_of_mem _ hd)
    rw [List.cons_append, digitRun, digit?_of_isDigit (hDigits c List.mem_cons_self), hTail]
    rfl

theorem digitRun_all {cs : List Char} (hDigits : AllDigits cs) :
    digitRun cs = (digitValues cs, []) := by
  have h : digitRun (cs ++ []) = (digitValues cs, []) := digitRun_append hDigits noDigit_nil
  rwa [List.append_nil] at h

/-! ### The shape -/

/-- The digits before the point: a zero alone, or digits that begin with another one. -/
def Whole (cs : List Char) : Prop :=
  AllDigits cs ∧ cs ≠ [] ∧ (cs.head? = some '0' → cs = ['0'])

/-- A fraction, if there is one. -/
def Fraction (cs : List Char) : Prop :=
  cs = [] ∨ ∃ ds, cs = '.' :: ds ∧ AllDigits ds ∧ ds ≠ []

/-- An exponent, if there is one. -/
def Exponent (cs : List Char) : Prop :=
  cs = [] ∨ ∃ sign ds, cs = 'e' :: (sign ++ ds) ∧ (sign = [] ∨ sign = ['-'] ∨ sign = ['+']) ∧
    AllDigits ds ∧ ds ≠ []

/-- A number without its sign. -/
def Magnitude (cs : List Char) : Prop :=
  ∃ whole fraction exponent, cs = whole ++ (fraction ++ exponent) ∧ Whole whole ∧
    Fraction fraction ∧ Exponent exponent

/-- The text of a number. -/
def Numeral (cs : List Char) : Prop :=
  ∃ body, Magnitude body ∧ (cs = body ∨ cs = '-' :: body)

theorem exponentOf_isSome {sign ds : List Char}
    (hSign : sign = [] ∨ sign = ['-'] ∨ sign = ['+']) (hDigits : AllDigits ds) (hNe : ds ≠ []) :
    ∃ e, exponentOf (sign ++ ds) = some e := by
  obtain ⟨d, rest, rfl⟩ := List.exists_cons_of_ne_nil hNe
  have hRun := digitRun_all hDigits
  have hDigit := hDigits d List.mem_cons_self
  have hMinus : d ≠ '-' := by rintro rfl; cases hDigit
  have hPlus : d ≠ '+' := by rintro rfl; cases hDigit
  rcases hSign with rfl | rfl | rfl
  · refine ⟨(false, digitValues (d :: rest)), ?_⟩
    simp [exponentOf, hRun, hMinus, hPlus, digitValues]
  · refine ⟨(true, digitValues (d :: rest)), ?_⟩
    simp [exponentOf, hRun, digitValues]
  · refine ⟨(false, digitValues (d :: rest)), ?_⟩
    simp [exponentOf, hRun, digitValues]

theorem Exponent.noDigit {cs : List Char} (h : Exponent cs) : NoDigit cs := by
  rcases h with rfl | ⟨sign, ds, rfl, -, -, -⟩
  · exact noDigit_nil
  · intro c hc
    cases hc
    rfl

theorem Fraction.noDigit_append {cs rest : List Char} (h : Fraction cs) (hRest : NoDigit rest) :
    NoDigit (cs ++ rest) := by
  rcases h with rfl | ⟨ds, rfl, -, -⟩
  · exact hRest
  · intro c hc
    cases hc
    rfl

/-- A fraction and an exponent are read after any digits. -/
theorem tail_isSome {fraction exponent : List Char} (hFraction : Fraction fraction)
    (hExponent : Exponent exponent) (negative : Bool) (whole : List Nat) :
    ∃ t, NumberText.tail negative whole (fraction ++ exponent) = some t := by
  have hNoDigit := hExponent.noDigit
  rcases hFraction with rfl | ⟨ds, rfl, hDigits, hNe⟩
  · rcases hExponent with rfl | ⟨sign, es, rfl, hSign, hes, hesNe⟩
    · exact ⟨_, rfl⟩
    · obtain ⟨e, he⟩ := exponentOf_isSome hSign hes hesNe
      refine ⟨⟨negative, whole, none, some e⟩, ?_⟩
      simp [NumberText.tail, he]
  · have hRun := digitRun_append hDigits hNoDigit
    obtain ⟨d, rest, rfl⟩ := List.exists_cons_of_ne_nil hNe
    rcases hExponent with rfl | ⟨sign, es, rfl, hSign, hes, hesNe⟩
    · refine ⟨⟨negative, whole, some (digitValues (d :: rest)), none⟩, ?_⟩
      rw [List.append_nil] at hRun ⊢
      simp [NumberText.tail, hRun, digitValues]
    · obtain ⟨e, he⟩ := exponentOf_isSome hSign hes hesNe
      refine ⟨⟨negative, whole, some (digitValues (d :: rest)), some e⟩, ?_⟩
      rw [List.cons_append, NumberText.tail, hRun]
      simp [digitValues, he]

/-- The number of a text without its sign. -/
def NumberText.unsigned (negative : Bool) (body : List Char) : Option NumberText :=
  match digitRun body with
  | ([], _) => none
  | (0 :: _ :: _, _) => none
  | (whole, rest) => NumberText.tail negative whole rest

theorem ofChars_minus (body : List Char) :
    NumberText.ofChars ('-' :: body) = NumberText.unsigned true body :=
  rfl

theorem ofChars_of_isDigit {c : Char} (h : c.isDigit = true) (cs : List Char) :
    NumberText.ofChars (c :: cs) = NumberText.unsigned false (c :: cs) := by
  have hMinus : c ≠ '-' := by rintro rfl; cases h
  unfold NumberText.ofChars
  split
  rename_i negative rest hEq
  split at hEq
  · rename_i hHead
    cases hHead
    exact absurd rfl hMinus
  · cases hEq
    rfl

/-- Digits that do not begin with a zero, or only that zero, stand before what follows them. -/
theorem unsigned_append {whole rest : List Char} (hWhole : Whole whole) (hRest : NoDigit rest)
    (negative : Bool) : NumberText.unsigned negative (whole ++ rest) =
      NumberText.tail negative (digitValues whole) rest := by
  obtain ⟨hDigits, hNe, hZero⟩ := hWhole
  obtain ⟨c, cs, rfl⟩ := List.exists_cons_of_ne_nil hNe
  rw [NumberText.unsigned, digitRun_append hDigits hRest]
  split
  · rename_i hNil
    cases hNil
  · rename_i hTwo
    obtain ⟨hValue, hMore⟩ := List.cons.inj (Prod.mk.inj hTwo).1
    have hLow : c.toNat - 48 = 0 := hValue
    have hDigit := toNat_of_isDigit (hDigits c List.mem_cons_self)
    have hChar : c = '0' := by
      have hNat : c.toNat = '0'.toNat := by
        show c.toNat = 48
        omega
      exact Char.toNat_inj.mp hNat
    have hAlone := hZero (by rw [hChar]; rfl)
    cases hAlone
    cases hMore
  · rename_i hEq
    cases hEq
    rfl

/-- A number without its sign is read, with either sign. -/
theorem Magnitude.read {body : List Char} (h : Magnitude body) (negative : Bool) :
    ∃ t, NumberText.unsigned negative body = some t := by
  obtain ⟨whole, fraction, exponent, rfl, hWhole, hFraction, hExponent⟩ := h
  rw [unsigned_append hWhole (hFraction.noDigit_append hExponent.noDigit)]
  exact tail_isSome hFraction hExponent negative _

theorem Magnitude.head_isDigit {body : List Char} (h : Magnitude body) :
    ∃ c cs, body = c :: cs ∧ c.isDigit = true := by
  obtain ⟨whole, fraction, exponent, rfl, ⟨hDigits, hNe, -⟩, -, -⟩ := h
  obtain ⟨c, cs, rfl⟩ := List.exists_cons_of_ne_nil hNe
  exact ⟨c, _, rfl, hDigits c List.mem_cons_self⟩

/-- **A numeral is read as a number.** -/
theorem Numeral.ofChars {cs : List Char} (h : Numeral cs) :
    ∃ t, NumberText.ofChars cs = some t := by
  obtain ⟨body, hBody, hSign⟩ := h
  rcases hSign with rfl | rfl
  · obtain ⟨c, rest, rfl, hDigit⟩ := hBody.head_isDigit
    rw [ofChars_of_isDigit hDigit]
    exact hBody.read false
  · rw [ofChars_minus]
    exact hBody.read true

/-! ### The characters -/

/-- The characters of numbers. -/
def IsNumeric (c : Char) : Prop :=
  c.isDigit = true ∨ c = '-' ∨ c = '+' ∨ c = '.' ∨ c = 'e'

theorem Exponent.mem {cs : List Char} (h : Exponent cs) {c : Char} (hc : c ∈ cs) : IsNumeric c := by
  rcases h with rfl | ⟨sign, ds, rfl, hSign, hDigits, -⟩
  · cases hc
  · rcases List.mem_cons.mp hc with rfl | hc
    · exact .inr (.inr (.inr (.inr rfl)))
    · rcases List.mem_append.mp hc with hc | hc
      · rcases hSign with rfl | rfl | rfl
        · cases hc
        · exact .inr (.inl (List.mem_singleton.mp hc))
        · exact .inr (.inr (.inl (List.mem_singleton.mp hc)))
      · exact .inl (hDigits c hc)

theorem Fraction.mem {cs : List Char} (h : Fraction cs) {c : Char} (hc : c ∈ cs) : IsNumeric c := by
  rcases h with rfl | ⟨ds, rfl, hDigits, -⟩
  · cases hc
  · rcases List.mem_cons.mp hc with rfl | hc
    · exact .inr (.inr (.inr (.inl rfl)))
    · exact .inl (hDigits c hc)

theorem Magnitude.mem {cs : List Char} (h : Magnitude cs) {c : Char} (hc : c ∈ cs) :
    IsNumeric c := by
  obtain ⟨whole, fraction, exponent, rfl, ⟨hDigits, -, -⟩, hFraction, hExponent⟩ := h
  rcases List.mem_append.mp hc with hc | hc
  · exact .inl (hDigits c hc)
  · rcases List.mem_append.mp hc with hc | hc
    · exact hFraction.mem hc
    · exact hExponent.mem hc

/-- **All characters of a numeral are numeric.** -/
theorem Numeral.mem {cs : List Char} (h : Numeral cs) {c : Char} (hc : c ∈ cs) : IsNumeric c := by
  obtain ⟨body, hBody, hSign⟩ := h
  rcases hSign with rfl | rfl
  · exact hBody.mem hc
  · rcases List.mem_cons.mp hc with rfl | hc
    · exact .inr (.inl rfl)
    · exact hBody.mem hc

theorem Numeral.ne_nil {cs : List Char} (h : Numeral cs) : cs ≠ [] := by
  obtain ⟨body, hBody, hSign⟩ := h
  obtain ⟨c, rest, rfl, -⟩ := hBody.head_isDigit
  rcases hSign with rfl | rfl
  · exact List.cons_ne_nil _ _
  · exact List.cons_ne_nil _ _

/-! ### What is written -/

theorem head?_toDigits_ne_zero {n : Nat} (h : n ≠ 0) : (Nat.toDigits 10 n).head? ≠ some '0' := by
  induction n using Nat.strongRecOn with
  | _ n ih =>
    by_cases hSmall : n < 10
    · rw [Nat.toDigits_of_lt_base hSmall]
      intro hHead
      exact h (Nat.digitChar_eq_zero.mp (Option.some.inj hHead))
    · rw [Nat.toDigits_of_base_le (by omega) (by omega),
        List.head?_append_of_ne_nil _ Nat.toDigits_ne_nil]
      exact ih (n / 10) (by omega) (by omega)

theorem whole_toDigits (n : Nat) : Whole (Nat.toDigits 10 n) := by
  refine ⟨allDigits_toDigits n, Nat.toDigits_ne_nil, ?_⟩
  intro hHead
  by_cases hZero : n = 0
  · rw [hZero, Nat.toDigits_zero]
  · exact absurd hHead (head?_toDigits_ne_zero hZero)

/-- Digits that do not begin with a zero may stand before the point. -/
theorem whole_of_head? {cs : List Char} (hDigits : AllDigits cs) (hNe : cs ≠ [])
    (hHead : cs.head? ≠ some '0') : Whole cs :=
  ⟨hDigits, hNe, fun h => absurd h hHead⟩

theorem fraction_of_digits {cs : List Char} (hDigits : AllDigits cs) (hNe : cs ≠ []) :
    Fraction ('.' :: cs) :=
  .inr ⟨cs, rfl, hDigits, hNe⟩

theorem magnitude_of_whole_fraction {whole fraction : List Char} (hWhole : Whole whole)
    (hFraction : Fraction fraction) : Magnitude (whole ++ fraction) :=
  ⟨whole, fraction, [], by rw [List.append_nil], hWhole, hFraction, .inl rfl⟩

theorem whole_zero : Whole ['0'] :=
  ⟨by intro c hc; rw [List.mem_singleton.mp hc]; rfl, List.cons_ne_nil _ _, fun _ => rfl⟩

theorem magnitude_zero_fraction {fraction : List Char} (h : Fraction fraction) :
    Magnitude ('0' :: fraction) :=
  magnitude_of_whole_fraction whole_zero h

theorem magnitude_positional {n : Nat} (h : n ≠ 0) (exponent : Int) :
    Magnitude (DecimalLayout.positional (Nat.toDigits 10 n) exponent) := by
  have hDigits := allDigits_toDigits n
  have hHead := head?_toDigits_ne_zero h
  have hNe : Nat.toDigits 10 n ≠ [] := Nat.toDigits_ne_nil
  unfold DecimalLayout.positional
  split
  · refine magnitude_of_whole_fraction (whole_of_head? ?_ ?_ ?_) (fraction_of_digits ?_ ?_)
    · exact hDigits.append (allDigits_zeros _)
    · exact List.append_ne_nil_of_left_ne_nil hNe _
    · rwa [List.head?_append_of_ne_nil _ hNe]
    · exact whole_zero.1
    · exact List.cons_ne_nil _ _
  · rename_i hNegative
    simp only
    split
    · rename_i hPlaces
      obtain ⟨c, cs, hCons⟩ := List.exists_cons_of_ne_nil hNe
      refine magnitude_of_whole_fraction (whole_of_head? ?_ ?_ ?_) (fraction_of_digits ?_ ?_)
      · exact fun d hd => hDigits d (List.mem_of_mem_take hd)
      · rw [Ne, List.take_eq_nil_iff]
        rintro (hNone | hNone)
        · omega
        · exact hNe hNone
      · rw [List.head?_take, if_neg (by omega)]
        exact hHead
      · exact fun d hd => hDigits d (List.mem_of_mem_drop hd)
      · rw [Ne, List.drop_eq_nil_iff]
        omega
    · refine magnitude_zero_fraction (fraction_of_digits ?_ ?_)
      · exact (allDigits_zeros _).append hDigits
      · exact List.append_ne_nil_of_right_ne_nil _ hNe

theorem exponent_of_layout (layout : DecimalLayout) (leading : Int) :
    Exponent ('e' :: (layout.exponentSign leading ++ DecimalLayout.digitsOf leading.natAbs)) := by
  refine .inr ⟨_, _, rfl, ?_, allDigits_toDigits _, Nat.toDigits_ne_nil⟩
  unfold DecimalLayout.exponentSign
  split
  · exact .inr (.inl rfl)
  · split
    · exact .inr (.inr rfl)
    · exact .inl rfl

theorem magnitude_withExponent (layout : DecimalLayout) (n : Nat) (leading : Int) :
    Magnitude (layout.withExponent (Nat.toDigits 10 n) leading) := by
  have hDigits := allDigits_toDigits n
  have hExponent := exponent_of_layout layout leading
  unfold DecimalLayout.withExponent
  split
  · rename_i d d' rest hEq
    rw [hEq] at hDigits
    refine ⟨[d], '.' :: d' :: rest, _, rfl, ⟨?_, List.cons_ne_nil _ _, ?_⟩, ?_, hExponent⟩
    · intro c hc
      exact hDigits c (List.mem_singleton.mp hc ▸ List.mem_cons_self)
    · intro hHead
      rw [Option.some.inj hHead]
    · exact fraction_of_digits (fun c hc => hDigits c (List.mem_cons_of_mem _ hc))
        (List.cons_ne_nil _ _)
  · exact ⟨_, [], _, rfl, whole_toDigits n, .inl rfl, hExponent⟩

theorem numeral_of_magnitude {body : List Char} (h : Magnitude body) (negative : Bool) :
    Numeral (if negative then '-' :: body else body) := by
  refine ⟨body, h, ?_⟩
  cases negative
  · exact .inl rfl
  · exact .inr rfl

theorem numeral_writeDecimal (layout : DecimalLayout) (negative : Bool) (d : Decimal) :
    Numeral (layout.write negative d).toList := by
  unfold DecimalLayout.write
  simp only [String.toList_ofList]
  refine numeral_of_magnitude ?_ negative
  split
  · exact magnitude_zero_fraction (fraction_of_digits whole_zero.1 (List.cons_ne_nil _ _))
  · rename_i hNonzero
    split
    · exact magnitude_positional hNonzero _
    · exact magnitude_withExponent layout _ _

theorem magnitude_toDigits (n : Nat) : Magnitude (Nat.toDigits 10 n) := by
  have h := magnitude_of_whole_fraction (whole_toDigits n) (.inl rfl)
  rwa [List.append_nil] at h

theorem toList_toString_int (i : Int) : (toString i).toList =
    if i < 0 then '-' :: Nat.toDigits 10 i.natAbs else Nat.toDigits 10 i.natAbs := by
  rw [Int.toString_eq_repr, Int.repr_eq_if]
  split
  · rename_i hPos
    have hAbs : i.toNat = i.natAbs := by omega
    rw [if_neg (by omega), Nat.toList_repr, hAbs]
  · rename_i hNeg
    have hAbs : (-i).toNat = i.natAbs := by omega
    rw [if_pos (by omega), String.toList_append, Nat.toList_repr, hAbs]
    rfl

/-- **What is written for a number has the shape of one.** -/
theorem numeral_write (n : Number) : Numeral n.write.toList := by
  cases n with
  | int value inRange =>
    rw [Number.write, toList_toString_int]
    have h := numeral_of_magnitude (magnitude_toDigits value.natAbs) (decide (value < 0))
    simpa only [decide_eq_true_eq] using h
  | float value => exact numeral_writeDecimal _ _ _

/-! ### Integers -/

theorem foldl_digitValues_toDigits (n : Nat) :
    (digitValues (Nat.toDigits 10 n)).foldl (fun acc d => acc * 10 + d) 0 = n := by
  rw [digitValues, List.foldl_map]
  have h := Nat.ofDigitChars_ten_toDigits (n := n)
  rw [Nat.ofDigitChars_eq_foldl] at h
  simp only [Nat.mul_comm 10] at h
  exact h

/-- The parts of the text of an integer. -/
def intText (i : Int) : NumberText :=
  ⟨decide (i < 0), digitValues (Nat.toDigits 10 i.natAbs), none, none⟩

theorem ofChars_toString_int (i : Int) :
    NumberText.ofChars (toString i).toList = some (intText i) := by
  have hRead : ∀ negative, NumberText.unsigned negative (Nat.toDigits 10 i.natAbs ++ []) =
      NumberText.tail negative (digitValues (Nat.toDigits 10 i.natAbs)) [] :=
    fun negative => unsigned_append (whole_toDigits i.natAbs) noDigit_nil negative
  simp only [List.append_nil] at hRead
  rw [toList_toString_int]
  split
  · rename_i hNeg
    rw [ofChars_minus, hRead, intText, decide_eq_true hNeg]
    rfl
  · rename_i hPos
    obtain ⟨c, cs, hCons, hDigit⟩ := (magnitude_toDigits i.natAbs).head_isDigit
    have hParts := hRead false
    rw [hCons] at hParts
    rw [hCons, ofChars_of_isDigit hDigit, hParts, ← hCons, intText, decide_eq_false hPos]
    rfl

theorem int?_intText {i : Int} (h : InWordRange i) : (intText i).int? = some (.int i h) := by
  have hValue : (if decide (i < 0) = true then -(i.natAbs : Int) else (i.natAbs : Int)) = i := by
    split
    · rename_i hNeg
      have := of_decide_eq_true hNeg
      omega
    · rename_i hPos
      have : ¬i < 0 := fun hNeg => hPos (decide_eq_true hNeg)
      omega
  have hNotZero : ¬(decide (i < 0) = true ∧ i.natAbs = 0) := by
    rintro ⟨hNeg, hZero⟩
    have := of_decide_eq_true hNeg
    omega
  simp only [NumberText.int?, intText, foldl_digitValues_toDigits, if_neg hNotZero, hValue,
    dif_pos h]

theorem number?_intText {i : Int} (h : InWordRange i) : (intText i).number? = some (.int i h) := by
  rw [NumberText.number?, int?_intText h]

/-- **The integer read is the integer written.** -/
theorem number?_write_int {i : Int} (h : InWordRange i) :
    (NumberText.ofChars (Number.int i h).write.toList).bind NumberText.number? =
      some (.int i h) := by
  rw [Number.write, ofChars_toString_int, Option.bind_some, number?_intText h]

/-! ### Integers and their only texts -/

theorem digit?_eq_some {c : Char} {d : Nat} (h : digit? c = some d) :
    c.isDigit = true ∧ d = c.toNat - 48 := by
  cases hDigit : c.isDigit with
  | false =>
    rw [digit?_of_not_isDigit hDigit] at h
    cases h
  | true =>
    rw [digit?_of_isDigit hDigit] at h
    exact ⟨rfl, (Option.some.inj h).symm⟩

/-- What a run of digits leaves comes after the digits that it took. -/
theorem exists_digits_of_digitRun {cs rest : List Char} {ds : List Nat}
    (h : digitRun cs = (ds, rest)) :
    ∃ digits, cs = digits ++ rest ∧ AllDigits digits ∧ digitValues digits = ds := by
  induction cs generalizing ds with
  | nil =>
    cases h
    exact ⟨[], rfl, nofun, rfl⟩
  | cons c cs ih =>
    rw [digitRun] at h
    split at h
    · rename_i d hDigit
      obtain ⟨hIsDigit, rfl⟩ := digit?_eq_some hDigit
      obtain ⟨rfl, hRest⟩ := Prod.mk.inj h
      obtain ⟨digits, hTail, hAll, hValues⟩ := ih (Prod.ext rfl hRest)
      refine ⟨c :: digits, ?_, List.forall_mem_cons.mpr ⟨hIsDigit, hAll⟩, ?_⟩
      · rw [hTail, List.cons_append]
      · exact congrArg _ hValues
    · cases h
      exact ⟨[], rfl, nofun, rfl⟩

/-- Only an integer has neither a fraction nor an exponent. -/
theorem eq_nil_of_tail {negative : Bool} {whole : List Nat} {cs : List Char} {t : NumberText}
    (h : NumberText.tail negative whole cs = some t) (hFraction : t.fraction = none)
    (hExponent : t.exponent = none) : cs = [] ∧ t = ⟨negative, whole, none, none⟩ := by
  unfold NumberText.tail at h
  split at h
  · exact ⟨rfl, (Option.some.inj h).symm⟩
  · split at h
    · cases h
    · cases h
      cases hFraction
    · split at h
      · obtain ⟨e, -, rfl⟩ := Option.map_eq_some_iff.mp h
        cases hFraction
      · cases h
  · split at h
    · obtain ⟨e, -, rfl⟩ := Option.map_eq_some_iff.mp h
      cases hExponent
    · cases h

/-- An integer without its sign consists of digits that may stand before a point. -/
theorem exists_whole_of_unsigned {negative : Bool} {body : List Char} {t : NumberText}
    (h : NumberText.unsigned negative body = some t) (hFraction : t.fraction = none)
    (hExponent : t.exponent = none) :
    Whole body ∧ t = ⟨negative, digitValues body, none, none⟩ := by
  unfold NumberText.unsigned at h
  split at h
  · cases h
  · cases h
  · rename_i whole rest hNotEmpty hNotPadded hRun
    obtain ⟨rfl, rfl⟩ := eq_nil_of_tail h hFraction hExponent
    obtain ⟨digits, hBody, hAll, rfl⟩ := exists_digits_of_digitRun hRun
    obtain rfl : body = digits := by rw [hBody, List.append_nil]
    refine ⟨⟨hAll, ?_, ?_⟩, rfl⟩
    · rintro rfl
      exact hNotEmpty rfl
    · intro hHead
      obtain ⟨c, cs, rfl⟩ := List.exists_cons_of_ne_nil (l := body) (by rintro rfl; cases hHead)
      cases Option.some.inj hHead
      cases cs with
      | nil => rfl
      | cons d ds => exact (hNotPadded _ _ rfl).elim

/-- A number begins with its minus sign or has none. -/
theorem ofChars_eq_unsigned (cs : List Char) :
    (∃ body, cs = '-' :: body ∧ NumberText.ofChars cs = NumberText.unsigned true body) ∨
      NumberText.ofChars cs = NumberText.unsigned false cs := by
  unfold NumberText.ofChars
  split
  rename_i negative rest hEq
  split at hEq
  · cases hEq
    exact .inl ⟨_, rfl, rfl⟩
  · cases hEq
    exact .inr rfl

theorem digitChar_of_isDigit {c : Char} (h : c.isDigit = true) :
    Nat.digitChar (c.toNat - 48) = c := by
  have hRange := toNat_of_isDigit h
  apply Char.toNat_inj.mp
  rw [Nat.toNat_digitChar_of_lt_ten (by omega)]
  omega

theorem toDigits_append_digits {n : Nat} (hPos : 0 < n) {cs : List Char} (hDigits : AllDigits cs) :
    Nat.toDigits 10 n ++ cs =
      Nat.toDigits 10 ((digitValues cs).foldl (fun acc d => acc * 10 + d) n) := by
  induction cs generalizing n with
  | nil => exact List.append_nil _
  | cons c cs ih =>
    obtain ⟨hDigit, hRest⟩ := List.forall_mem_cons.mp hDigits
    have hRange := toNat_of_isDigit hDigit
    have hStep : Nat.toDigits 10 n ++ [c] = Nat.toDigits 10 (n * 10 + (c.toNat - 48)) := by
      have h := Nat.toDigits_append_toDigits (b := 10) (n := n) (d := c.toNat - 48)
        (by omega) hPos (by omega)
      rwa [Nat.toDigits_of_lt_base (n := c.toNat - 48) (by omega), digitChar_of_isDigit hDigit,
        Nat.mul_comm] at h
    calc Nat.toDigits 10 n ++ c :: cs
        = (Nat.toDigits 10 n ++ [c]) ++ cs := by simp
      _ = Nat.toDigits 10 (n * 10 + (c.toNat - 48)) ++ cs := by rw [hStep]
      _ = _ := ih (by omega) hRest

/-- Digits that may stand before a point are those of their value. -/
theorem toDigits_foldl_digitValues {cs : List Char} (h : Whole cs) :
    Nat.toDigits 10 ((digitValues cs).foldl (fun acc d => acc * 10 + d) 0) = cs := by
  obtain ⟨hDigits, hNe, hZero⟩ := h
  obtain ⟨c, rest, rfl⟩ := List.exists_cons_of_ne_nil hNe
  by_cases hHead : c = '0'
  · rw [hZero (by rw [hHead]; rfl)]
    rfl
  · obtain ⟨hDigit, hRest⟩ := List.forall_mem_cons.mp hDigits
    have hRange := toNat_of_isDigit hDigit
    have hPos : c.toNat ≠ 48 := fun hNat => hHead (Char.toNat_inj.mp hNat)
    have hMore := toDigits_append_digits (n := c.toNat - 48) (by omega) hRest
    rw [Nat.toDigits_of_lt_base (by omega), digitChar_of_isDigit hDigit] at hMore
    rw [digitValues, List.map_cons, List.foldl_cons, Nat.zero_mul, Nat.zero_add]
    exact hMore.symm

/-- What is read as an integer has a sign and digits alone, and `-0` is none. -/
theorem parts_of_int? {t : NumberText} {i : Int} {hRange : InWordRange i}
    (h : t.int? = some (.int i hRange)) : t.fraction = none ∧ t.exponent = none ∧
      ∃ magnitude : Nat, t.whole.foldl (fun acc d => acc * 10 + d) 0 = magnitude ∧
        ¬(t.negative = true ∧ magnitude = 0) ∧
        i = if t.negative then -(magnitude : Int) else magnitude := by
  unfold NumberText.int? at h
  split at h
  · rename_i hFraction hExponent
    dsimp only at h
    split at h
    · cases h
    · rename_i hNotZero
      refine ⟨hFraction, hExponent, _, rfl, hNotZero, ?_⟩
      obtain ⟨hInRange, hInt⟩ := Option.dite_none_right_eq_some.mp h
      exact (Number.int.inj (Option.some.inj hInt)).symm
  · cases h

/-- **An integer has one text**: what is read as an integer is what is written for it. -/
theorem toString_of_int? {cs : List Char} {t : NumberText} {i : Int} {hRange : InWordRange i}
    (hRead : NumberText.ofChars cs = some t) (hInt : t.int? = some (.int i hRange)) :
    (toString i).toList = cs := by
  obtain ⟨hFraction, hExponent, magnitude, hMagnitude, hNotZero, hValue⟩ := parts_of_int? hInt
  rw [toList_toString_int]
  rcases ofChars_eq_unsigned cs with ⟨body, rfl, hSign⟩ | hSign
  · obtain ⟨hWhole, rfl⟩ := exists_whole_of_unsigned (hSign ▸ hRead) hFraction hExponent
    have hDigits := toDigits_foldl_digitValues hWhole
    have hNonzero : magnitude ≠ 0 := fun hZero => hNotZero ⟨rfl, hZero⟩
    rw [if_pos rfl] at hValue
    have hAbs : i.natAbs = magnitude := by omega
    rw [if_pos (by omega), hAbs, ← hMagnitude, hDigits]
  · obtain ⟨hWhole, rfl⟩ := exists_whole_of_unsigned (hSign ▸ hRead) hFraction hExponent
    have hDigits := toDigits_foldl_digitValues hWhole
    rw [if_neg Bool.false_ne_true] at hValue
    have hAbs : i.natAbs = magnitude := by omega
    rw [if_neg (by omega), hAbs, ← hMagnitude, hDigits]

end DesignSystem.Json
