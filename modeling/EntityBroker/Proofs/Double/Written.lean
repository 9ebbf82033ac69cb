import Mathlib.Data.List.TakeDrop
import Mathlib.Data.List.TakeWhile
import EntityBroker.Double.Decimal

/-!
# The written form of numbers

The grammar of decimals, from the parts that a reader would name: a sign, digits with at most one
point among them, an exponent. Reading a decimal accepts exactly these texts and gives the number
that the parts write (`parse?_eq_some`). A whole number is a sign with digits and nothing else, and
reads as a decimal as well (`WholeWritten.written`).
-/

namespace EntityBroker.Decimal

-- ---------------------------------------------------------------- the grammar

def AllDigits (text : List Char) : Prop := ∀ c ∈ text, c.isDigit = true

inductive SignWritten : List Char → Bool → Prop
  | none : SignWritten [] false
  | plus : SignWritten ['+'] false
  | minus : SignWritten ['-'] true

def signed (negative : Bool) (n : Nat) : Int := if negative then -(n : Int) else n

/-- A whole number: digits, at least one of them, and a sign or none. -/
inductive WholeWritten : List Char → Int → Prop
  | mk {sign digits : List Char} {negative : Bool} (hsign : SignWritten sign negative)
      (hdigits : AllDigits digits) (hne : digits ≠ []) :
      WholeWritten (sign ++ digits) (signed negative (Nat.ofDigitChars 10 digits 0))

/-- A point with digits after it, or neither. -/
inductive FractionWritten : List Char → List Char → Prop
  | none : FractionWritten [] []
  | point {digits : List Char} (hdigits : AllDigits digits) : FractionWritten ('.' :: digits) digits

inductive ExponentWritten : List Char → Int → Prop
  | none : ExponentWritten [] 0
  | marked {mark : Char} {text : List Char} {n : Int} (hmark : mark = 'e' ∨ mark = 'E')
      (hwhole : WholeWritten text n) : ExponentWritten (mark :: text) n

/-- A decimal. Digits may be missing on one side of the point, but not on both. -/
inductive Written : List Char → Decimal → Prop
  | mk {sign whole fractionText fraction exponentText : List Char} {negative : Bool}
      {exponent : Int}
      (hsign : SignWritten sign negative) (hwhole : AllDigits whole)
      (hfraction : FractionWritten fractionText fraction) (hne : whole ++ fraction ≠ [])
      (hexponent : ExponentWritten exponentText exponent) :
      Written (sign ++ (whole ++ (fractionText ++ exponentText)))
        ⟨negative, Nat.ofDigitChars 10 (whole ++ fraction) 0, exponent - fraction.length⟩

-- ---------------------------------------------------------------- signs and digits

section
variable {sign digits text rest : List Char} {negative : Bool} {c : Char}

theorem ne_sign_of_isDigit (h : c.isDigit = true) : c ≠ '-' ∧ c ≠ '+' ∧ c ≠ '.' := by
  refine ⟨?_, ?_, ?_⟩ <;> rintro rfl <;> revert h <;> decide

theorem splitSign_append (h : SignWritten sign negative)
    (hrest : ∀ c ∈ rest.head?, c ≠ '-' ∧ c ≠ '+') :
    splitSign (sign ++ rest) = (negative, rest) := by
  cases h with
  | none =>
    cases rest with
    | nil => rfl
    | cons c rest =>
      obtain ⟨hminus, hplus⟩ := hrest c rfl
      simp [splitSign, hminus, hplus]
  | plus => rfl
  | minus => rfl

theorem splitSign_written (text : List Char) :
    ∃ sign, SignWritten sign (splitSign text).1 ∧ text = sign ++ (splitSign text).2 := by
  unfold splitSign
  split
  · exact ⟨_, .minus, rfl⟩
  · exact ⟨_, .plus, rfl⟩
  · exact ⟨_, .none, rfl⟩

theorem spanDigits_append (h : AllDigits digits) (hrest : ∀ c ∈ rest.head?, c.isDigit = false) :
    spanDigits (digits ++ rest) = (digits, rest) := by
  rw [spanDigits, List.span_eq_takeWhile_dropWhile, List.takeWhile_append_of_pos h,
    List.dropWhile_append_of_pos h]
  cases rest with
  | nil => simp
  | cons c rest => simp [hrest c rfl]

theorem spanDigits_written (text : List Char) :
    AllDigits (spanDigits text).1 ∧ text = (spanDigits text).1 ++ (spanDigits text).2 := by
  rw [spanDigits, List.span_eq_takeWhile_dropWhile]
  exact ⟨fun _ => List.mem_takeWhile_imp, List.takeWhile_append_dropWhile.symm⟩

theorem head_of_allDigits (h : AllDigits digits) (hne : digits ≠ []) (rest : List Char) :
    ∀ c ∈ (digits ++ rest).head?, c ≠ '-' ∧ c ≠ '+' := by
  cases digits with
  | nil => exact absurd rfl hne
  | cons d digits =>
    rintro _ ⟨⟩
    exact (ne_sign_of_isDigit (h d (List.mem_cons_self ..))).imp_right And.left

/-- A whole number is told by its sign and by what follows it. -/
theorem wholeWritten_iff {z : Int} :
    WholeWritten text z ↔ (splitSign text).2 ≠ [] ∧ AllDigits (splitSign text).2 ∧
      z = signed (splitSign text).1 (ofDigits (splitSign text).2) := by
  constructor
  · rintro ⟨hsign, hdigits, hne⟩
    have hhead := head_of_allDigits hdigits hne []
    rw [List.append_nil] at hhead
    rw [splitSign_append hsign hhead]
    exact ⟨hne, hdigits, rfl⟩
  · rintro ⟨hne, hdigits, rfl⟩
    obtain ⟨sign, hsign, htext⟩ := splitSign_written text
    have hwhole := WholeWritten.mk hsign hdigits hne
    rw [← htext] at hwhole
    exact hwhole

theorem WholeWritten.unique {y z : Int} (hy : WholeWritten text y) (hz : WholeWritten text z) :
    y = z :=
  (wholeWritten_iff.mp hy).2.2.trans (wholeWritten_iff.mp hz).2.2.symm

end

-- ---------------------------------------------------------------- fractions and exponents

theorem parseExponent?_eq_some {text : List Char} {n : Int} :
    parseExponent? text = some n ↔ ExponentWritten text n := by
  cases text with
  | nil =>
    constructor
    · rintro ⟨⟩
      exact .none
    · rintro ⟨⟩
      rfl
  | cons mark rest =>
    have hsplit : parseExponent? (mark :: rest) = some n ↔ (mark = 'e' ∨ mark = 'E') ∧
        (splitSign rest).2 ≠ [] ∧ AllDigits (splitSign rest).2 ∧
          signed (splitSign rest).1 (ofDigits (splitSign rest).2) = n := by
      by_cases hmark : mark = 'e' ∨ mark = 'E'
      · simp [parseExponent?, hmark, and_assoc, signed, AllDigits]
      · simp [parseExponent?, hmark]
    rw [hsplit]
    constructor
    · rintro ⟨hmark, hne, hdigits, hn⟩
      exact .marked hmark (wholeWritten_iff.mpr ⟨hne, hdigits, hn.symm⟩)
    · rintro ⟨⟩
      rename_i hmark hwhole
      obtain ⟨hne, hdigits, hn⟩ := wholeWritten_iff.mp hwhole
      exact ⟨hmark, hne, hdigits, hn.symm⟩

section
variable {fractionText fraction exponentText whole text : List Char} {exponent : Int}

theorem head_of_exponentWritten (h : ExponentWritten exponentText exponent) :
    ∀ c ∈ exponentText.head?, c.isDigit = false ∧ c ≠ '.' := by
  cases h with
  | none => simp
  | marked hmark _ =>
    rintro _ ⟨⟩
    rcases hmark with rfl | rfl <;> decide

theorem spanFraction_append (hfraction : FractionWritten fractionText fraction)
    (hexponent : ExponentWritten exponentText exponent) :
    spanFraction (fractionText ++ exponentText) = (fraction, exponentText) := by
  have hhead := head_of_exponentWritten hexponent
  cases hfraction with
  | none =>
    cases exponentText with
    | nil => rfl
    | cons c rest => simp [spanFraction, (hhead c rfl).2]
  | point hdigits => exact spanDigits_append hdigits fun c hc => (hhead c hc).1

theorem spanFraction_written (text : List Char) :
    ∃ fractionText, FractionWritten fractionText (spanFraction text).1 ∧
      text = fractionText ++ (spanFraction text).2 := by
  unfold spanFraction
  split
  · rename_i rest
    obtain ⟨hdigits, htext⟩ := spanDigits_written rest
    exact ⟨_, .point hdigits, congrArg ('.' :: ·) htext⟩
  · exact ⟨[], .none, rfl⟩

/-- What follows the whole part begins with no digit. -/
theorem head_of_fractionWritten (hfraction : FractionWritten fractionText fraction)
    (hexponent : ExponentWritten exponentText exponent) :
    ∀ c ∈ (fractionText ++ exponentText).head?, c.isDigit = false := by
  cases hfraction with
  | none => exact fun c hc => (head_of_exponentWritten hexponent c hc).1
  | point hdigits =>
    rintro _ ⟨⟩
    rfl

/-- A decimal begins, after its sign, with a digit or with the point. -/
theorem head_of_unsigned (hwhole : AllDigits whole)
    (hfraction : FractionWritten fractionText fraction) (hne : whole ++ fraction ≠ [])
    (rest : List Char) :
    ∀ c ∈ (whole ++ (fractionText ++ rest)).head?, c ≠ '-' ∧ c ≠ '+' := by
  cases whole with
  | cons d digits => exact head_of_allDigits hwhole (List.cons_ne_nil d digits) _
  | nil =>
    cases hfraction with
    | none => exact absurd rfl hne
    | point hdigits =>
      rintro _ ⟨⟩
      decide

/-- Reading accepts what the grammar does, and gives the number that is written. -/
theorem parse?_eq_some {d : Decimal} : parse? text = some d ↔ Written text d := by
  constructor
  · intro h
    obtain ⟨sign, hsign, htext⟩ := splitSign_written text
    obtain ⟨hwhole, hunsigned⟩ := spanDigits_written (splitSign text).2
    obtain ⟨fractionText, hfraction, hafter⟩ :=
      spanFraction_written (spanDigits (splitSign text).2).2
    simp only [parse?, Option.ite_none_left_eq_some, Option.map_eq_some_iff] at h
    obtain ⟨hne, exponent, hexponent, rfl⟩ := h
    have hwritten := Written.mk hsign hwhole hfraction hne (parseExponent?_eq_some.mp hexponent)
    rw [← hafter, ← hunsigned, ← htext] at hwritten
    exact hwritten
  · intro h
    cases h with
    | @mk sign whole fractionText fraction exponentText _ _ hsign hwhole hfraction hne hexponent =>
      have hhead := head_of_unsigned hwhole hfraction hne exponentText
      have hspan := spanDigits_append hwhole (head_of_fractionWritten hfraction hexponent)
      simp only [parse?, splitSign_append hsign hhead, hspan,
        spanFraction_append hfraction hexponent, if_neg hne, parseExponent?_eq_some.mpr hexponent]
      rfl

/-- After its sign a decimal goes on with a digit or with the point. -/
theorem not_written_of_head {sign : List Char} {negative : Bool} {c : Char} {d : Decimal}
    (hsign : SignWritten sign negative) (hhead : c ≠ '-' ∧ c ≠ '+') (hdigit : c.isDigit = false)
    (hpoint : c ≠ '.') (rest : List Char) : ¬Written (sign ++ c :: rest) d := by
  have hspan : spanDigits (c :: rest) = ([], c :: rest) :=
    spanDigits_append (List.forall_mem_nil _) (by simpa using hdigit)
  have hsplit : splitSign (sign ++ c :: rest) = (negative, c :: rest) :=
    splitSign_append hsign (by simpa using hhead)
  simp [← parse?_eq_some, parse?, hsplit, hspan, spanFraction, hpoint]

theorem Written.unique {d e : Decimal} (hd : Written text d) (he : Written text e) : d = e :=
  Option.some.inj ((parse?_eq_some.mpr hd).symm.trans (parse?_eq_some.mpr he))

/-- A whole number is written by its own text in decimal. -/
theorem wholeWritten_toString (z : Int) : WholeWritten (toString z).toList z := by
  have hnat : ∀ n : Nat, (toString n).toList = Nat.toDigits 10 n := by
    intro n
    rw [Nat.toString_eq_ofList_toDigits, String.toList_ofList]
  have hdigits : ∀ n : Nat, AllDigits (Nat.toDigits 10 n) := fun n c hc =>
    Nat.isDigit_of_mem_toDigits (by decide) (by decide) hc
  cases z with
  | ofNat n =>
    have hwhole := WholeWritten.mk .none (hdigits n) Nat.toDigits_ne_nil
    rw [Nat.ofDigitChars_ten_toDigits, List.nil_append, ← hnat] at hwhole
    exact hwhole
  | negSucc n =>
    have htext : toString (Int.negSucc n) = "-" ++ toString (n + 1) := rfl
    have hwhole := WholeWritten.mk .minus (hdigits (n + 1)) Nat.toDigits_ne_nil
    rw [Nat.ofDigitChars_ten_toDigits, ← hnat] at hwhole
    rw [htext, String.toList_append]
    exact hwhole

/-- A whole number is a decimal without a fraction and without an exponent. -/
theorem WholeWritten.written {z : Int} (h : WholeWritten text z) :
    ∃ d, Written text d ∧ d.digits = z.natAbs ∧ d.exponent = 0 := by
  cases h with
  | @mk sign digits negative hsign hdigits hne =>
    have hwritten := Written.mk hsign hdigits .none (by simpa using hne) .none
    simp only [List.append_nil] at hwritten
    refine ⟨_, hwritten, ?_, rfl⟩
    cases negative <;> simp [signed]

end

end EntityBroker.Decimal
