import Mathlib.Data.List.TakeWhile
import FailureWire.Proofs.Number.Digits
import FailureWire.Time.DateText

/-!
# Instants are read back from their text

The text of an instant is in the strict form of date texts, so that reading it takes one way only: its tokens are
those that it was written of (`lexes_chars`), the calendar date is that of the day (`daysFromCivil_civilFromDays`), and
the instant is the one that was written (`parse?_chars`).
-/

namespace FailureWire

namespace Instant

/-! ## The calendar -/

/-- The year of a cycle of 400 years, of which a day is left. -/
theorem yearOfCycle_bounds {d y : Int} (hlow : 0 ≤ d) (hhigh : d < 146097)
    (hy : y = (d - d / 1460 + d / 36524 - d / 146096) / 365) :
    0 ≤ y ∧ y < 400 ∧ 0 ≤ d - (365 * y + y / 4 - y / 100) ∧ d - (365 * y + y / 4 - y / 100) ≤ 365 := by
  rcases Int.lt_or_le d 146096 with hlast | hlast
  · obtain ⟨c, hc⟩ : ∃ c, d / 1460 = c := ⟨_, rfl⟩
    obtain ⟨a, ha⟩ : ∃ a, d / 36524 = a := ⟨_, rfl⟩
    have hzero : d / 146096 = 0 := Int.ediv_eq_zero_of_lt hlow hlast
    rw [hc, ha, hzero] at hy
    rcases Int.lt_or_le (d + a) (1461 * c) with hleap | hplain
    · -- the leap day of a group of four years
      have hyear : y = 4 * c - 1 := by omega
      have hcentury : y / 100 = a := by omega
      omega
    · have hyear : 4 * c ≤ y ∧ y < 4 * c + 4 := by omega
      have hgroup : y / 4 = c := by omega
      have hcentury : y / 100 = a := by omega
      omega
  · have hday : d = 146096 := by omega
    subst hday
    omega

/-- A month that is counted from March, and a day of it, are found again. -/
theorem daysFromCivil_shifted {cycle y m day : Int} (hy : 0 ≤ y) (hy' : y < 400) (hm : 0 ≤ m) (hm' : m ≤ 11)
    (hday : 1 ≤ day) {month : Int} (hmonth : month = if m < 10 then m + 3 else m - 9) :
    daysFromCivil (if month ≤ 2 then y + cycle * 400 + 1 else y + cycle * 400) month.toNat day.toNat =
      cycle * 146097 + (365 * y + y / 4 - y / 100 + ((153 * m + 2) / 5 + day - 1)) - 719468 := by
  have hyear : (if month.toNat ≤ 2 then (if month ≤ 2 then y + cycle * 400 + 1 else y + cycle * 400) - 1
      else if month ≤ 2 then y + cycle * 400 + 1 else y + cycle * 400) = y + cycle * 400 := by
    split <;> split <;> omega
  have hshifted : ((month.toNat : Int) + 9) % 12 = m := by
    split at hmonth <;> omega
  have hdiv : (y + cycle * 400) / 400 = cycle := by omega
  have hmod : (y + cycle * 400) % 400 = y := by omega
  simp only [daysFromCivil, hyear, hshifted, hdiv, hmod]
  omega

/-- **A day of the calendar is the day that it was made of.** -/
theorem daysFromCivil_civilFromDays (days : Int) : ∃ year month day, civilFromDays days = (year, month, day) ∧
    daysFromCivil year month day = days ∧ 1 ≤ month ∧ month ≤ 12 ∧ 1 ≤ day ∧ day ≤ 31 ∧
    365 * (year - 1970).natAbs ≤ days.natAbs + 800 := by
  have hcycle := Int.mul_ediv_add_emod (days + 719468) 146097
  have hlow := Int.emod_nonneg (days + 719468) (show (146097 : Int) ≠ 0 by decide)
  have hhigh := Int.emod_lt_of_pos (days + 719468) (show (0 : Int) < 146097 by decide)
  refine ⟨_, _, _, rfl, ?_⟩
  obtain ⟨cycle, hc⟩ : ∃ c, (days + 719468) / 146097 = c := ⟨_, rfl⟩
  obtain ⟨d, hd⟩ : ∃ d, (days + 719468) % 146097 = d := ⟨_, rfl⟩
  obtain ⟨y, hy⟩ : ∃ y, (d - d / 1460 + d / 36524 - d / 146096) / 365 = y := ⟨_, rfl⟩
  obtain ⟨n, hn⟩ : ∃ n, d - (365 * y + y / 4 - y / 100) = n := ⟨_, rfl⟩
  obtain ⟨m, hm⟩ : ∃ m, (5 * n + 2) / 153 = m := ⟨_, rfl⟩
  rw [hc, hd] at hcycle
  rw [hd] at hlow hhigh
  obtain ⟨hy₀, hy₁, hn₀, hn₁⟩ := yearOfCycle_bounds hlow hhigh hy.symm
  rw [hn] at hn₀ hn₁
  simp only [hc, hd, hy, hn, hm]
  have hm₀ : 0 ≤ m ∧ m ≤ 11 := by omega
  have hday : 1 ≤ n - (153 * m + 2) / 5 + 1 ∧ n - (153 * m + 2) / 5 + 1 ≤ 31 := by omega
  refine ⟨(daysFromCivil_shifted hy₀ hy₁ hm₀.1 hm₀.2 hday.1 rfl).trans (by omega), ?_, ?_, ?_, ?_, ?_⟩
  · split <;> omega
  · split <;> omega
  · omega
  · omega
  · split <;> omega

end Instant

/-! ## Tokens -/

namespace Instant

open Number

theorem areDigits_padded (w n : Nat) : AreDigits (padded w n) := by
  refine fun c hc => (List.mem_append.1 hc).elim (fun hc => ?_) (areDigits_toDigits n c)
  rw [List.eq_of_mem_replicate hc]
  rfl

theorem length_padded {w n : Nat} (hn : n < 10 ^ w) (hw : 0 < w) : (padded w n).length = w := by
  have hlength : (Nat.toDigits 10 n).length ≤ w := (Nat.length_toDigits_le_iff (by decide) hw).2 hn
  rw [padded, List.length_append, List.length_replicate]
  omega

theorem numberOf_padded {w n : Nat} (hn : n < 10 ^ w) (hw : 0 < w) (hw' : w ≤ 9) :
    DateToken.numberOf (padded w n) = n := by
  have hzeros (k : Nat) (ds : List Char) :
      (List.replicate k '0' ++ ds).dropWhile (· = '0') = ds.dropWhile (· = '0') := by
    rw [List.dropWhile_append_of_pos]
    exact fun c hc => decide_eq_true (List.eq_of_mem_replicate hc)
  rw [DateToken.numberOf, padded, hzeros]
  rcases Nat.eq_zero_or_pos n with rfl | hpos
  · rfl
  · have hhead := head?_toDigits_ne_zero hpos
    have hlength : (Nat.toDigits 10 n).length ≤ DateToken.maxDigits :=
      ((Nat.length_toDigits_le_iff (by decide) hw).2 hn).trans hw'
    have hdrop : (Nat.toDigits 10 n).dropWhile (· = '0') = Nat.toDigits 10 n := by
      cases hds : Nat.toDigits 10 n with
      | nil => rfl
      | cons d ds =>
        rw [hds] at hhead
        exact List.dropWhile_cons_of_neg (by simpa using hhead)
    rw [hdrop, List.take_of_length_le hlength, ofDigitChars_toDigits_ten]

end Instant

namespace DateToken

open Number

/-- A text consists of these tokens. -/
structure Lexes (s : List Char) (tokens : List DateToken) : Prop where
  coded : ∀ c ∈ s, c.toNat ≠ 0
  within : ∀ fuel, s.length ≤ fuel → tokensWithin fuel s = tokens

variable {s : List Char} {tokens : List DateToken}

theorem lexes_nil : Lexes [] [] := ⟨by simp, fun fuel _ => by cases fuel <;> rfl⟩

theorem Lexes.ofText (h : Lexes s tokens) : ofText s = tokens := by
  have hall : s.takeWhile (fun c => c.toNat ≠ 0) = s :=
    List.takeWhile_eq_self_iff.2 fun c hc => decide_eq_true (h.coded c hc)
  rw [DateToken.ofText, hall]
  exact h.within _ (Nat.le_refl _)

/-- One more token in front of a text. -/
theorem Lexes.cons {c : Char} (first : List Char) {rest : List Char} {token : DateToken} (h : Lexes rest tokens)
    (hcoded : ∀ d ∈ c :: first, d.toNat ≠ 0) (hnext : next c (first ++ rest) = (token, rest)) :
    Lexes (c :: first ++ rest) (token :: tokens) where
  coded d hd := (List.mem_append.1 hd).elim (hcoded d) (h.coded d)
  within fuel hfuel := by
    obtain ⟨fuel, rfl⟩ : ∃ n, fuel = n + 1 := ⟨fuel - 1, by simp at hfuel; omega⟩
    rw [List.cons_append, tokensWithin, hnext]
    exact congrArg (token :: ·) (h.within fuel (by simp at hfuel; omega))

theorem Lexes.sign (h : Lexes s tokens) {c : Char} (hc : c ∈ signs) : Lexes (c :: s) (.sign c :: tokens) := by
  have hnext : next c s = (.sign c, s) ∧ c.toNat ≠ 0 := by
    simp only [signs, List.mem_cons, List.not_mem_nil, or_false] at hc
    rcases hc with rfl | rfl | rfl | rfl | rfl <;> exact ⟨rfl, by decide⟩
  exact h.cons [] (by simpa using hnext.2) hnext.1

theorem Lexes.letter (h : Lexes s tokens) {c : Char} {w : DateWord} (hc : isLetter c = true) (hsign : c ∉ signs)
    (hw : .ofChars [c] = w) (hs : ∀ d ∈ s.head?, isLetter d = false) : Lexes (c :: s) (.word w 1 :: tokens) := by
  have hcode : 65 ≤ c.toNat := by
    simp only [isLetter, Bool.and_eq_true, decide_eq_true_eq] at hc
    exact hc.1
  have hdigit : c.isDigit = false := by
    by_contra hdigit
    have hrange := toNat_of_isDigit (Bool.of_not_eq_false hdigit)
    omega
  have hrest : s.takeWhile isLetter = [] ∧ s.dropWhile isLetter = s := by
    cases s with
    | nil => exact ⟨rfl, rfl⟩
    | cons d more =>
      have hd := hs d rfl
      simp [hd]
  have hnext : next c s = (.word w 1, s) := by
    simp [next, hdigit, hsign, hc, hrest, hw]
  exact h.cons [] (by simp; omega) hnext

theorem Lexes.padded (h : Lexes s tokens) {w n : Nat} (hn : n < 10 ^ w) (hpos : 0 < w) (hw : w ≤ 9)
    (hs : ∀ d ∈ s.head?, d.isDigit = false) : Lexes (Instant.padded w n ++ s) (.number n w :: tokens) := by
  have hlength : (Instant.padded w n).length = w := Instant.length_padded hn hpos
  have hdigits := Instant.areDigits_padded w n
  have hnumber : numberOf (Instant.padded w n) = n := Instant.numberOf_padded hn hpos hw
  generalize Instant.padded w n = ds at *
  cases ds with
  | nil => exact absurd hlength hpos.ne
  | cons c first =>
    refine h.cons first (fun d hd => ?_) ?_
    · have hrange := toNat_of_isDigit (hdigits d hd)
      omega
    · rw [next, if_pos (hdigits c (List.mem_cons_self ..)), ← List.cons_append,
        spanDigits_append_of_areDigits hdigits hs]
      simp only [hnumber, hlength]

/-- A year is one number, which has a sign if it does not have four digits. -/
def yearTokens (year : Int) : List DateToken :=
  if 0 ≤ year ∧ year ≤ 9999 then [.number year.toNat 4]
  else [.sign (if year < 0 then '-' else '+'), .number year.natAbs 6]

theorem Lexes.year (h : Lexes s tokens) {year : Int} (hyear : year.natAbs < 1000000)
    (hs : ∀ d ∈ s.head?, d.isDigit = false) :
    Lexes (Instant.yearChars year ++ s) (yearTokens year ++ tokens) := by
  unfold Instant.yearChars yearTokens
  split
  · exact h.padded (by omega) (by decide) (by decide) hs
  · exact (h.padded (by omega) (by decide) (by decide) hs).sign (by split <;> decide)

theorem isLetter_of_isDigit {c : Char} (h : c.isDigit = true) : isLetter c = false := by
  have hrange := toNat_of_isDigit h
  simp only [isLetter, Bool.and_eq_false_iff, decide_eq_false_iff_not]
  exact .inl fun hle => absurd (show 65 ≤ c.toNat from hle) (by omega)

/-- The text of a date and a time of day consists of numbers, signs and marks. -/
theorem lexes_chars {year : Int} {month day h m s n : Nat} (hyear : year.natAbs < 1000000) (hmonth : month < 100)
    (hday : day < 100) (hh : h < 100) (hm : m < 100) (hs : s < 100) (hn : n < 1000) :
    Lexes (Instant.yearChars year ++ '-' :: (Instant.padded 2 month ++ '-' :: (Instant.padded 2 day ++
      'T' :: (Instant.padded 2 h ++ ':' :: (Instant.padded 2 m ++ ':' :: (Instant.padded 2 s ++
      '.' :: (Instant.padded 3 n ++ ['Z'])))))))
    (yearTokens year ++ [.sign '-', .number month 2, .sign '-', .number day 2, .word .timeMark 1, .number h 2,
      .sign ':', .number m 2, .sign ':', .number s 2, .sign '.', .number n 3, .word (.zone 0) 1]) := by
  have hzone : Lexes ['Z'] [.word (.zone 0) 1] := lexes_nil.letter rfl (by decide) rfl (by simp)
  have hmilli := (hzone.padded (w := 3) hn (by decide) (by decide) (by simp)).sign (c := '.') (by decide)
  have hsecond := (hmilli.padded (w := 2) hs (by decide) (by decide) (by simp)).sign (c := ':') (by decide)
  have hminute := (hsecond.padded (w := 2) hm (by decide) (by decide) (by simp)).sign (c := ':') (by decide)
  have hhour := hminute.padded (w := 2) hh (by decide) (by decide) (by simp)
  have hmark := hhour.letter (c := 'T') (w := .timeMark) rfl (by decide) rfl (by
    have hdigits := Instant.areDigits_padded 2 h
    have hlength : (Instant.padded 2 h).length = 2 := Instant.length_padded hh (by decide)
    cases hpadded : Instant.padded 2 h with
    | nil => simp [hpadded] at hlength
    | cons d more =>
      rintro _ ⟨⟩
      exact isLetter_of_isDigit (hdigits d (hpadded ▸ List.mem_cons_self ..)))
  have hdate := (hmark.padded (w := 2) hday (by decide) (by decide) (by simp)).sign (c := '-') (by decide)
  have hmonth := (hdate.padded (w := 2) hmonth (by decide) (by decide) (by simp)).sign (c := '-') (by decide)
  exact hmonth.year hyear (by simp)

end DateToken

namespace DateReading

/-- **A date and a time of day are read as they are written.** -/
theorem ofTokens?_strict {year : Int} {month day h m s ms : Nat} (hyear : year.natAbs < 1000000)
    (hmonth : 1 ≤ month ∧ month ≤ 12) (hday : 1 ≤ day ∧ day ≤ 31) (hh : h < 24) (hm : m < 60) (hs : s < 60) :
    ofTokens? (DateToken.yearTokens year ++ [.sign '-', .number month 2, .sign '-', .number day 2,
      .word .timeMark 1, .number h 2, .sign ':', .number m 2, .sign ':', .number s 2, .sign '.', .number ms 3,
      .word (.zone 0) 1]) =
    some ⟨[year, month, day], true, none, [h, m, s, ms], none, some false, some 0, some 0⟩ := by
  have hfraction : fraction ms 3 = ms := Nat.div_one ms
  have htime (y : Int) : strictMonth { date := [y] } [.sign '-', .number month 2, .sign '-', .number day 2,
      .word .timeMark 1, .number h 2, .sign ':', .number m 2, .sign ':', .number s 2, .sign '.', .number ms 3,
      .word (.zone 0) 1] =
      .complete ⟨[y, month, day], true, none, [h, m, s, ms], none, some false, some 0, some 0⟩ := by
    have hle : h ≤ 24 := by omega
    have hne : h ≠ 24 := by omega
    simp [strictMonth, strictDay, afterDate, strictTime, strictEnd, setZone, hfraction, hmonth, hday, hle, hne, hm, hs]
  unfold DateToken.yearTokens
  split
  · have hvalue : (year.toNat : Int) = year := by omega
    simp only [ofTokens?, strictYear, List.cons_append, List.nil_append, htime, hvalue]
  · split
    · have hvalue : -(year.natAbs : Int) = year := by omega
      have hne : year.natAbs ≠ 0 := by omega
      simp only [ofTokens?, strictYear, List.cons_append, List.nil_append, if_neg hne, htime, hvalue]
    · have hvalue : (year.natAbs : Int) = year := by omega
      simp only [ofTokens?, strictYear, List.cons_append, List.nil_append, htime, hvalue]

/-- A complete reading stands for its instant. -/
theorem instant?_strict {year : Int} {month day h m s ms : Nat} {t : Int} (hmonth : 1 ≤ month ∧ month ≤ 12)
    (hday : 1 ≤ day ∧ day ≤ 31) (hh : h < 24) (hm : m < 60) (hs : s < 60) (hms : ms < 1000)
    (ht : Instant.daysFromCivil year month day * Instant.dayLength + (((h * 60 + m) * 60 + s) * 1000 + ms : Nat) = t)
    (hlimit : -Instant.limit ≤ t ∧ t ≤ Instant.limit) :
    instant? ⟨[year, month, day], true, none, [h, m, s, ms], none, some false, some 0, some 0⟩ = some t := by
  have hcivil : civil? ⟨[year, month, day], true, none, [h, m, s, ms], none, some false, some 0, some 0⟩ =
      some (year, month, day) := by
    simp [civil?]
    omega
  have htime : timeOfDay? ⟨[year, month, day], true, none, [h, m, s, ms], none, some false, some 0, some 0⟩ =
      some (((h * 60 + m) * 60 + s) * 1000 + ms) := by
    simp [timeOfDay?, fillTime, hh, hm, hs, hms]
  have hoffset : offset? ⟨[year, month, day], true, none, [h, m, s, ms], none, some false, some 0, some 0⟩ =
      some 0 := by
    simp [offset?]
  simp only [instant?, hcivil, htime, hoffset, Option.bind_eq_bind, Option.bind_some, Int.sub_zero, ht,
    if_pos hlimit]

end DateReading

namespace Instant

/-- **An instant is read back from its text.** -/
theorem parse?_chars {ms : Int} (h : ms.natAbs ≤ 8640000000000000) : parse? (chars ms) = some ms := by
  obtain ⟨year, month, day, hcivil, hdays, hmonth, hmonth', hday, hday', hyear⟩ :=
    daysFromCivil_civilFromDays (ms / dayLength)
  have hdiv := Int.mul_ediv_add_emod ms dayLength
  have hlow := Int.emod_nonneg ms (show dayLength ≠ 0 by decide)
  have hhigh := Int.emod_lt_of_pos ms (show 0 < dayLength by decide)
  have ht : ms % dayLength = ((ms % dayLength).toNat : Int) := (Int.toNat_of_nonneg hlow).symm
  simp only [parse?, chars, hcivil]
  generalize (ms % dayLength).toNat = t at *
  rw [ht] at hdiv hhigh
  simp only [dayLength] at *
  have htime : ((t / 3600000 * 60 + t / 60000 % 60) * 60 + t / 1000 % 60) * 1000 + t % 1000 = t := by omega
  have htext := @DateToken.lexes_chars year month day (t / 3600000) (t / 60000 % 60) (t / 1000 % 60) (t % 1000)
    (by omega) (by omega) (by omega) (by omega) (by omega) (by omega) (by omega)
  simp only [List.append_assoc, List.cons_append]
  rw [htext.ofText, DateReading.ofTokens?_strict (by omega) ⟨hmonth, hmonth'⟩ ⟨hday, hday'⟩ (by omega) (by omega)
    (by omega), Option.bind_some]
  exact DateReading.instant?_strict ⟨hmonth, hmonth'⟩ ⟨hday, hday'⟩ (by omega) (by omega) (by omega) (by omega)
    (by rw [hdays, htime]; simp only [dayLength]; omega) (by unfold limit; omega)

end Instant

end FailureWire
