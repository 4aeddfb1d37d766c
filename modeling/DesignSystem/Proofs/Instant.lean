import DesignSystem.Instant
import Mathlib.Algebra.Group.Nat.Defs
/-!
# Instants are read as they are written

`Instant.read` accepts far more than `Instant.write` writes; on what is written it gives the instant
back (`read_write`). The text is taken apart from the front. Each part is a run of digits that ends
where its field is full or where no digit follows (`takeDigits?_append`), and no part begins with a
blank, so none is skipped.
-/

namespace DesignSystem

/-- One step of a reader that succeeds. -/
theorem bind_of_eq_some {α β : Type} {x : Option α} {a : α} (h : x = some a) (f : α → Option β) :
    (x >>= f) = f a := by
  rw [h]
  rfl

namespace Instant

/-! ### Runs of digits -/

theorem length_digits (width n : Nat) : (digits width n).length = width := by
  induction width generalizing n with
  | zero => rfl
  | succ width ih => rw [digits, List.length_append, ih, List.length_singleton]

theorem isDigit_of_mem_digits {width n : Nat} {c : Char} (h : c ∈ digits width n) :
    c.isDigit = true := by
  induction width generalizing n with
  | zero => cases h
  | succ width ih =>
    rw [digits, List.mem_append, List.mem_singleton] at h
    rcases h with h | rfl
    · exact ih h
    · rw [Nat.isDigit_digitChar]
      exact decide_eq_true (Nat.mod_lt n (by omega))

theorem digitsValue_digits {width n : Nat} (h : n < 10 ^ width) :
    digitsValue (digits width n) = n := by
  induction width generalizing n with
  | zero =>
    rw [Nat.pow_zero] at h
    have hZero : n = 0 := by omega
    rw [hZero]
    rfl
  | succ width ih =>
    have hTens : n / 10 < 10 ^ width := by
      rw [Nat.pow_succ] at h
      omega
    have hValue : digitsValue (digits width (n / 10)) = n / 10 := ih hTens
    rw [digitsValue] at hValue
    rw [digits, digitsValue, List.foldl_append, hValue]
    show 10 * (n / 10) + ((n % 10).digitChar.toNat - 48) = n
    rw [Nat.toNat_digitChar_sub_48_of_lt_ten (Nat.mod_lt n (by omega))]
    omega

/-- Digits are taken up to the limit, or up to something else. -/
theorem takeDigits?_append {limit : Nat} {ds rest : List Char} (hNe : ds ≠ [])
    (hDigits : ∀ c ∈ ds, c.isDigit = true) (hLength : ds.length ≤ limit)
    (hEnd : ds.length = limit ∨ ∀ c ∈ rest.head?, c.isDigit = false) :
    takeDigits? limit (ds ++ rest) = some (ds, rest) := by
  have hRest : (rest.take (limit - ds.length)).takeWhile Char.isDigit = [] := by
    rcases hEnd with hFull | hOther
    · rw [hFull, Nat.sub_self, List.take_zero, List.takeWhile_nil]
    · cases rest with
      | nil => rw [List.take_nil, List.takeWhile_nil]
      | cons c rest =>
        cases limit - ds.length with
        | zero => rfl
        | succ k =>
          rw [List.take_succ_cons, List.takeWhile_cons_of_neg]
          rw [hOther c rfl]
          exact Bool.false_ne_true
  have hRun : ((ds ++ rest).take limit).takeWhile Char.isDigit = ds := by
    rw [List.take_append, List.take_of_length_le hLength, List.takeWhile_append_of_pos hDigits,
      hRest, List.append_nil]
  rw [takeDigits?, hRun]
  cases ds with
  | nil => exact absurd rfl hNe
  | cons d ds => simp only [List.drop_left]

theorem digits_ne_nil {width : Nat} (h : 0 < width) (n : Nat) : digits width n ≠ [] := by
  intro hNil
  have hLength := length_digits width n
  rw [hNil, List.length_nil] at hLength
  omega

theorem takeDigits?_digits {limit width : Nat} (hPos : 0 < width) (hWidth : width ≤ limit) (n : Nat)
    {rest : List Char} (hEnd : width = limit ∨ ∀ c ∈ rest.head?, c.isDigit = false) :
    takeDigits? limit (digits width n ++ rest) = some (digits width n, rest) := by
  have hLength := length_digits width n
  apply takeDigits?_append (digits_ne_nil hPos n) (fun _ hc => isDigit_of_mem_digits hc)
  · rwa [hLength]
  · rwa [hLength]

/-! ### Nothing is skipped -/

theorem dropBlanks_cons {c : Char} (h : Text.isBlank c = false) (cs : List Char) :
    Text.dropBlanks (c :: cs) = c :: cs := by
  rw [Text.dropBlanks, List.dropWhile_cons_of_neg]
  rw [h]
  exact Bool.false_ne_true

theorem isBlank_of_isDigit {c : Char} (h : c.isDigit = true) : Text.isBlank c = false := by
  have hRange : 48 ≤ c.toNat ∧ c.toNat ≤ 57 := by
    simpa [Char.isDigit, UInt32.le_iff_toNat_le] using h
  simp only [Text.isBlank, Text.blankRanges, List.any_cons, List.any_nil, Bool.or_false,
    Bool.or_eq_false_iff, Bool.and_eq_false_iff, decide_eq_false_iff_not]
  omega

theorem dropBlanks_digits {width : Nat} (h : 0 < width) (n : Nat) (rest : List Char) :
    Text.dropBlanks (digits width n ++ rest) = digits width n ++ rest := by
  cases hDigits : digits width n with
  | nil => exact absurd hDigits (digits_ne_nil h n)
  | cons c cs =>
    have hDigit : c.isDigit = true :=
      isDigit_of_mem_digits (n := n) (hDigits ▸ List.mem_cons_self)
    exact dropBlanks_cons (isBlank_of_isDigit hDigit) _

/-! ### The parts -/

theorem number?_digits {n : Nat} (h : n < 100) (rest : List Char) :
    number? 2 (digits 2 n ++ rest) = some (n, rest) := by
  have hValue : digitsValue (digits 2 n) = n := digitsValue_digits (by omega)
  rw [number?, dropBlanks_digits (by omega), takeDigits?_digits (by omega) (by omega) n (.inl rfl)]
  simp only [Option.map_some, hValue]

theorem mark?_cons {c : Char} (h : Text.isBlank c = false) (rest : List Char) :
    mark? c (c :: rest) = some rest := by
  rw [mark?, dropBlanks_cons h]
  exact if_pos rfl

/-- The number of digits that a year with a sign is written with. -/
def yearWidth (n : Nat) : Nat :=
  if n < 10000 then 4 else if n < 100000 then 5 else 6

theorem writeYear_signed {year : Int} (h : ¬(0 ≤ year ∧ year ≤ 9999)) :
    writeYear year = (if year < 0 then '-' else '+') ::
      digits (yearWidth year.natAbs) year.natAbs := by
  have hWidth : (if year.natAbs < 10000 then digits 4 year.natAbs
      else if year.natAbs < 100000 then digits 5 year.natAbs
      else digits 6 year.natAbs) = digits (yearWidth year.natAbs) year.natAbs := by
    unfold yearWidth
    split
    · rfl
    · split <;> rfl
  rw [writeYear, if_neg h, hWidth]

theorem lt_pow_yearWidth {n : Nat} (h : n < 1000000) : n < 10 ^ yearWidth n := by
  unfold yearWidth
  split
  · omega
  · split <;> omega

theorem yearWidth_pos (n : Nat) : 0 < yearWidth n := by
  unfold yearWidth
  split
  · omega
  · split <;> omega

/-- Digits do not begin with anything else. -/
theorem digits_append_ne_cons {c : Char} (hOther : c.isDigit = false) {width : Nat}
    (hWidth : 0 < width) (n : Nat) (rest cs : List Char) : digits width n ++ rest ≠ c :: cs := by
  intro hEq
  cases hDigits : digits width n with
  | nil => exact digits_ne_nil hWidth n hDigits
  | cons d ds =>
    rw [hDigits] at hEq
    have hDigit := isDigit_of_mem_digits (n := n) (hDigits ▸ List.mem_cons_self : d ∈ _)
    rw [(List.cons.inj hEq).1, hOther] at hDigit
    cases hDigit

/-- A year is read as it is written, up to a dash. -/
theorem year?_writeYear {year : Int} (h : InCalendar year) (rest : List Char) :
    year? (writeYear year ++ '-' :: rest) = some (year, '-' :: rest) := by
  have hDash : ∀ c ∈ ('-' :: rest).head?, c.isDigit = false := by
    intro c hc
    cases hc
    rfl
  by_cases hShort : 0 ≤ year ∧ year ≤ 9999
  · have hLess : year.toNat < 10 ^ 4 := by omega
    rw [writeYear, if_pos hShort, year?, dropBlanks_digits (by omega)]
    split
    · rename_i cs hCons
      exact absurd hCons (digits_append_ne_cons rfl (by omega) _ _ _)
    · rename_i cs hCons
      exact absurd hCons (digits_append_ne_cons rfl (by omega) _ _ _)
    · have hYear : ((year.toNat : Nat) : Int) = year := by omega
      rw [takeDigits?_digits (by omega) (by omega) year.toNat (.inr hDash)]
      simp only [Option.map_some, digitsValue_digits hLess, hYear]
  · obtain ⟨hLow, hHigh⟩ := h
    have hLess : year.natAbs < 10 ^ yearWidth year.natAbs := lt_pow_yearWidth (by omega)
    have hWidth : yearWidth year.natAbs ≤
        (digits (yearWidth year.natAbs) year.natAbs ++ '-' :: rest).length := by
      rw [List.length_append, length_digits]
      omega
    have hTake := takeDigits?_digits (yearWidth_pos year.natAbs) hWidth year.natAbs (.inr hDash)
    rw [writeYear_signed hShort]
    split
    · rename_i hNegative
      rw [List.cons_append, year?, dropBlanks_cons (by decide)]
      simp only [hTake, Option.map_some, digitsValue_digits hLess]
      have hYear : -((year.natAbs : Nat) : Int) = year := by omega
      rw [hYear]
    · rename_i hPositive
      rw [List.cons_append, year?, dropBlanks_cons (by decide)]
      simp only [hTake, Option.map_some, digitsValue_digits hLess]
      have hYear : ((year.natAbs : Nat) : Int) = year := by omega
      rw [hYear]

/-- Up to nine digits behind a point are read as nanoseconds. -/
theorem fraction?_digits {width n : Nat} (hPos : 0 < width) (hWidth : width ≤ 9)
    (h : n < 10 ^ width) : fraction? ('.' :: digits width n ++ ['Z']) =
      some (n * 10 ^ (9 - width), ['Z']) := by
  have hZone : ∀ c ∈ ['Z'].head?, c.isDigit = false := by
    intro c hc
    cases hc
    rfl
  rw [List.cons_append, fraction?, takeDigits?_digits hPos hWidth n (.inr hZone)]
  simp only [Option.map_some, digitsValue_digits h, length_digits]
  rfl

/-- A fraction is read as it is written, up to the zone. -/
theorem fraction?_writeFraction {nano : Nat} (h : nano < nanosPerSecond) :
    fraction? (writeFraction nano ++ ['Z']) = some (nano, ['Z']) := by
  rw [nanosPerSecond] at h
  unfold writeFraction
  split
  · rename_i hZero
    rw [hZero]
    rfl
  · split
    · rw [fraction?_digits (by omega) (by omega) (by omega)]
      have hNano : nano / 1000000 * 10 ^ (9 - 3) = nano := by omega
      rw [hNano]
    · split
      · rw [fraction?_digits (by omega) (by omega) (by omega)]
        have hNano : nano / 1000 * 10 ^ (9 - 6) = nano := by omega
        rw [hNano]
      · rw [fraction?_digits (by omega) (by omega) (by omega)]
        have hNano : nano * 10 ^ (9 - 9) = nano := by omega
        rw [hNano]

theorem date_of?_self (d : Date) : Date.of? d.year d.month d.day = some d :=
  dif_pos ⟨d.inCalendar, d.month_pos, d.month_le, d.day_pos, d.day_le⟩

/-- In universal time, the local numbers are those of the instant. -/
theorem ofLocal?_self (i : Instant) :
    ofLocal? i.date i.hour i.minute i.second i.nano 0 = some i := by
  have hHour := i.hour_lt
  have hMinute := i.minute_lt
  have hClock : ((60 * (i.hour : Int) + i.minute - 0) % 1440).toNat = 60 * i.hour + i.minute := by
    omega
  have hHours : (60 * i.hour + i.minute) / 60 = i.hour := by omega
  have hMinutes : (60 * i.hour + i.minute) % 60 = i.minute := by omega
  simp only [ofLocal?]
  rw [if_neg (by omega), if_neg (by omega), Option.bind_some, hClock, hHours, hMinutes]
  exact dif_pos ⟨hHour, hMinute, i.second_le, i.nano_lt⟩

/-- **An instant is read as it is written.** -/
theorem read_write (i : Instant) : read i.write = some i := by
  have hHour := i.hour_lt
  have hMinute := i.minute_lt
  have hSecond := i.second_le
  have hMonth := i.date.month_le
  have hDay : i.date.day < 100 := by
    have hLe := i.date.day_le
    have hMost : daysIn i.date.year i.date.month ≤ 31 := by
      unfold daysIn
      split
      · split <;> omega
      · split <;> omega
    omega
  have hDash : Text.isBlank '-' = false := rfl
  have hColon : Text.isBlank ':' = false := rfl
  have hZone : zone? (Text.dropBlanks ['Z']) = some (0, []) := rfl
  have hEnd : ((Text.dropBlanks []).isEmpty = true ∧ i.hour < 24 ∧ i.minute < 60) :=
    ⟨rfl, hHour, hMinute⟩
  rw [read, write, String.toList_ofList, readChars, writeChars]
  refine (bind_of_eq_some (year?_writeYear i.date.inCalendar _) _).trans ?_
  refine (bind_of_eq_some (mark?_cons hDash _) _).trans ?_
  refine (bind_of_eq_some (number?_digits (by omega) _) _).trans ?_
  refine (bind_of_eq_some (mark?_cons hDash _) _).trans ?_
  refine (bind_of_eq_some (number?_digits hDay _) _).trans ?_
  refine (if_pos (.inl rfl)).trans ?_
  refine (bind_of_eq_some (number?_digits (by omega) _) _).trans ?_
  refine (bind_of_eq_some (mark?_cons hColon _) _).trans ?_
  refine (bind_of_eq_some (number?_digits (by omega) _) _).trans ?_
  refine (bind_of_eq_some (mark?_cons hColon _) _).trans ?_
  refine (bind_of_eq_some (number?_digits (by omega) _) _).trans ?_
  refine (bind_of_eq_some (fraction?_writeFraction i.nano_lt) _).trans ?_
  refine (bind_of_eq_some hZone _).trans ?_
  refine (bind_of_eq_some (if_pos hEnd) _).trans ?_
  refine (bind_of_eq_some (date_of?_self i.date) _).trans ?_
  exact ofLocal?_self i

end Instant

end DesignSystem
