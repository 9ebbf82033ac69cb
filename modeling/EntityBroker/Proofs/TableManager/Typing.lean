import EntityBroker.Proofs.Double.Overflow
import EntityBroker.Proofs.Double.Written
import EntityBroker.Proofs.TableManager.Rows

/-!
# The type of a cell

Whole numbers, decimals and words are tried in this order, and their written forms overlap. Which
text gets which type is said here without the order, by the grammar of numbers and their size
(`TypedAs`).
-/

namespace EntityBroker.TableManager

open Decimal (SignWritten WholeWritten Written)
open Double (overflow)

variable {text : List Char} {z : Int}

-- ---------------------------------------------------------------- whole numbers

def InRange (z : Int) : Prop := Int64.minValue.toInt ≤ z ∧ z ≤ Int64.maxValue.toInt

theorem inRange_toInt (n : Int64) : InRange n.toInt := by
  have hlow := Int64.le_toInt n
  have hhigh := Int64.toInt_lt n
  rw [InRange, Int64.toInt_minValue, Int64.toInt_maxValue]
  omega

theorem toInt_ofInt (h : InRange z) : (Int64.ofInt z).toInt = z := by
  rw [InRange, Int64.toInt_minValue, Int64.toInt_maxValue] at h
  apply Int64.toInt_ofInt_of_le <;> omega

/-- A number in range is read as it is written; none is taken modulo the word. -/
theorem parseInt?_eq_some {n : Int64} : parseInt? text = some n ↔ WholeWritten text n.toInt := by
  have hparse : parseInt? text = some n ↔
      ∃ z, WholeWritten text z ∧ InRange z ∧ Int64.ofInt z = n := by
    simp [parseInt?, Decimal.wholeWritten_iff, InRange, Decimal.signed, Decimal.AllDigits,
      and_assoc]
  rw [hparse]
  constructor
  · rintro ⟨z, hwhole, hrange, rfl⟩
    rwa [toInt_ofInt hrange]
  · intro hwhole
    exact ⟨_, hwhole, inRange_toInt n, Int64.ofInt_toInt n⟩

theorem parseInt?_eq_none :
    parseInt? text = none ↔ ∀ n : Int64, ¬WholeWritten text n.toInt := by
  simp only [Option.eq_none_iff_forall_ne_some, ne_eq, parseInt?_eq_some]

-- ---------------------------------------------------------------- decimals

theorem parseFinite?_eq_some {x : Double} :
    parseFinite? text = some x ↔ ∃ d, Written text d ∧ d.magnitude < overflow ∧ d.nearest = x := by
  simp only [parseFinite?, Option.filter_eq_some_iff, Option.map_eq_some_iff,
    Decimal.parse?_eq_some]
  constructor
  · rintro ⟨⟨d, hwritten, rfl⟩, hfinite⟩
    exact ⟨d, hwritten, (Decimal.nearest_isFinite_iff d).mp hfinite, rfl⟩
  · rintro ⟨d, hwritten, hbelow, rfl⟩
    exact ⟨⟨d, hwritten, rfl⟩, (Decimal.nearest_isFinite_iff d).mpr hbelow⟩

theorem parseFinite?_eq_none :
    parseFinite? text = none ↔ ∀ d, Written text d → overflow ≤ d.magnitude := by
  simp only [Option.eq_none_iff_forall_ne_some, ne_eq, parseFinite?_eq_some]
  constructor
  · intro h d hwritten
    exact not_lt.mp fun hbelow => h _ ⟨d, hwritten, hbelow, rfl⟩
  · rintro h x ⟨d, hwritten, hbelow, -⟩
    exact absurd hbelow (not_lt.mpr (h d hwritten))

theorem magnitude_of_wholeWritten (h : WholeWritten text z) :
    ∃ d, Written text d ∧ d.magnitude = |(z : ℚ)| := by
  obtain ⟨d, hwritten, hdigits, hexponent⟩ := h.written
  refine ⟨d, hwritten, ?_⟩
  rw [Decimal.magnitude, hdigits, hexponent, zpow_zero, mul_one, Nat.cast_natAbs, Int.cast_abs]

theorem abs_lt_overflow (h : InRange z) : |(z : ℚ)| < overflow := by
  rw [InRange, Int64.toInt_minValue, Int64.toInt_maxValue] at h
  have habs : |z| ≤ 2 ^ 63 := abs_le.mpr (by omega)
  calc |(z : ℚ)| ≤ 2 ^ 63 := mod_cast habs
    _ < 2 ^ (1023 : ℤ) := zpow_lt_zpow_right₀ (m := 63) one_lt_two (by decide)
    _ ≤ overflow := Decimal.le_overflow

-- ---------------------------------------------------------------- the judgement

/-- The type of a text by its form. A whole number in range is a decimal too, and what is no number
may be a word. -/
inductive TypedAs (text : List Char) : Value → Prop
  | int {n : Int64} (hwhole : WholeWritten text n.toInt) : TypedAs text (.int n)
  | float {d : Decimal} (hwhole : ∀ n : Int64, ¬WholeWritten text n.toInt)
      (hwritten : Written text d) (hbelow : d.magnitude < overflow) :
      TypedAs text (.float d.nearest)
  | bool {b : Bool} (hword : text = (toString b).toList) : TypedAs text (.bool b)
  | text (hnumber : ∀ d, Written text d → overflow ≤ d.magnitude)
      (hword : ∀ b : Bool, text ≠ (toString b).toList) : TypedAs text (.text (String.ofList text))

theorem typedAs_valueOf (text : List Char) : TypedAs text (valueOf text) := by
  unfold valueOf
  split
  · rename_i n hint
    exact .int (parseInt?_eq_some.mp hint)
  · rename_i hint
    split
    · rename_i x hfinite
      obtain ⟨d, hwritten, hbelow, rfl⟩ := parseFinite?_eq_some.mp hfinite
      exact .float (parseInt?_eq_none.mp hint) hwritten hbelow
    · rename_i hfinite
      split
      · rename_i htrue
        exact .bool htrue
      · rename_i htrue
        split
        · rename_i hfalse
          exact .bool hfalse
        · rename_i hfalse
          exact .text (parseFinite?_eq_none.mp hfinite) fun b => by cases b <;> assumption

theorem TypedAs.valueOf_eq {v : Value} (h : TypedAs text v) : valueOf text = v := by
  unfold valueOf
  cases h with
  | int hwhole => rw [parseInt?_eq_some.mpr hwhole]
  | float hwhole hwritten hbelow =>
    rw [parseInt?_eq_none.mpr hwhole, parseFinite?_eq_some.mpr ⟨_, hwritten, hbelow, rfl⟩]
  | @bool b hword =>
    subst hword
    cases b <;> rfl
  | text hnumber hword =>
    have hint : ∀ n : Int64, ¬WholeWritten text n.toInt := by
      intro n hwhole
      obtain ⟨d, hwritten, hmagnitude⟩ := magnitude_of_wholeWritten hwhole
      have hbelow := abs_lt_overflow (inRange_toInt n)
      rw [← hmagnitude] at hbelow
      exact absurd hbelow (not_lt.mpr (hnumber d hwritten))
    rw [parseInt?_eq_none.mpr hint, parseFinite?_eq_none.mpr hnumber]
    exact (if_neg (hword true)).trans (if_neg (hword false))

theorem valueOf_eq_iff {v : Value} : valueOf text = v ↔ TypedAs text v := by
  constructor
  · rintro rfl
    exact typedAs_valueOf text
  · exact TypedAs.valueOf_eq

-- ---------------------------------------------------------------- one type at a time

theorem valueOf_eq_int_iff {n : Int64} : valueOf text = .int n ↔ WholeWritten text n.toInt := by
  rw [valueOf_eq_iff]
  constructor
  · intro h
    cases h with
    | int hwhole => exact hwhole
  · exact .int

theorem valueOf_eq_bool_iff {b : Bool} : valueOf text = .bool b ↔ text = (toString b).toList := by
  rw [valueOf_eq_iff]
  constructor
  · intro h
    cases h with
    | bool hword => exact hword
  · exact .bool

theorem isFinite_of_valueOf_eq {x : Double} (h : valueOf text = .float x) : x.isFinite = true := by
  cases valueOf_eq_iff.mp h with
  | float _ _ hbelow => exact (Decimal.nearest_isFinite_iff _).mpr hbelow

/-- What is written as a decimal is no word, so too large a number stays text. -/
theorem valueOf_of_overflow {d : Decimal} (hwritten : Written text d) (h : overflow ≤ d.magnitude) :
    valueOf text = .text (String.ofList text) := by
  apply TypedAs.valueOf_eq
  apply TypedAs.text
  · intro e he
    rwa [he.unique hwritten]
  · rintro b rfl
    have hnumber := Decimal.parse?_eq_some.mpr hwritten
    cases b <;> cases hnumber

/-- A whole number that does not fit is never cut down to one that does. -/
theorem valueOf_of_not_inRange (hwhole : WholeWritten text z) (h : ¬InRange z) :
    ∃ d, Written text d ∧ d.magnitude = |(z : ℚ)| ∧ valueOf text =
      if |(z : ℚ)| < overflow then .float d.nearest else .text (String.ofList text) := by
  obtain ⟨d, hwritten, hmagnitude⟩ := magnitude_of_wholeWritten hwhole
  refine ⟨d, hwritten, hmagnitude, ?_⟩
  split
  · rename_i hbelow
    refine TypedAs.valueOf_eq (.float ?_ hwritten (hmagnitude ▸ hbelow))
    intro n hn
    obtain rfl := hn.unique hwhole
    exact h (inRange_toInt n)
  · rename_i hbelow
    exact valueOf_of_overflow hwritten (hmagnitude ▸ not_lt.mp hbelow)

-- ---------------------------------------------------------------- words for no finite number

/-- The names of infinity and of what is no number, in capitals or not. -/
def NonFiniteWord (word : List Char) : Prop :=
  word.map Char.toLower ∈ ["inf".toList, "infinity".toList, "nan".toList]

instance (word : List Char) : Decidable (NonFiniteWord word) := inferInstanceAs (Decidable (_ ∈ _))

theorem toLower_of_isDigit {c : Char} (h : c.isDigit = true) : c.toLower = c := by
  rw [Char.isDigit, Bool.and_eq_true, decide_eq_true_eq, decide_eq_true_eq] at h
  unfold Char.toLower
  split
  · rename_i hupper
    exact absurd (UInt32.le_trans hupper.1 h.2) (by decide)
  · rfl

theorem NonFiniteWord.exists_head {word : List Char} (h : NonFiniteWord word) :
    ∃ c rest, word = c :: rest ∧ c.toLower ∈ ['i', 'n'] := by
  have hhead := List.mem_map_of_mem (f := List.head?) h
  cases word with
  | nil => exact absurd hhead (by decide)
  | cons c rest =>
    refine ⟨c, rest, rfl, ?_⟩
    simpa using hhead

theorem NonFiniteWord.ne_toString {sign word : List Char} {negative : Bool}
    (hsign : SignWritten sign negative) (h : NonFiniteWord word) (b : Bool) :
    sign ++ word ≠ (toString b).toList := by
  intro heq
  cases hsign with
  | none =>
    rw [List.nil_append] at heq
    subst heq
    revert h
    cases b <;> decide
  | plus => cases b <;> simp [toString] at heq
  | minus => cases b <;> simp [toString] at heq

theorem isDigit_of_toLower {c : Char} (h : c.toLower ∈ ['i', 'n']) : c.isDigit = false := by
  rw [Bool.eq_false_iff]
  intro hdigit
  rw [toLower_of_isDigit hdigit] at h
  revert hdigit
  simp only [List.mem_cons, List.not_mem_nil, or_false] at h
  rcases h with rfl | rfl <;> decide

theorem valueOf_nonFiniteWord {sign word : List Char} {negative : Bool}
    (hsign : SignWritten sign negative) (hword : NonFiniteWord word) :
    valueOf (sign ++ word) = .text (String.ofList (sign ++ word)) := by
  refine TypedAs.valueOf_eq (.text ?_ (hword.ne_toString hsign))
  obtain ⟨c, rest, rfl, hc⟩ := hword.exists_head
  have hne : ∀ a : Char, a.toLower ∉ ['i', 'n'] → c ≠ a := by
    rintro a ha rfl
    exact ha hc
  intro d hwritten
  exact absurd hwritten (Decimal.not_written_of_head hsign
    ⟨hne _ (by decide), hne _ (by decide)⟩ (isDigit_of_toLower hc) (hne _ (by decide)) rest)

-- ---------------------------------------------------------------- all texts

/-- The type of every text. An integer is a whole number in range, and one that its text gives in
full; out of range a whole number is no integer but a decimal among the others. No float is infinite
or NaN: a decimal that overflows and the words for such numbers stay text. A boolean is one of its
two words, and a text is the cell as it stands. -/
theorem cells_typed :
    (∀ text v, valueOf text = v ↔ TypedAs text v) ∧
    (∀ text (n : Int64), valueOf text = .int n ↔ WholeWritten text n.toInt) ∧
    (∀ n : Int64, valueOf (toString n).toList = .int n) ∧
    (∀ text z, WholeWritten text z → ¬InRange z → ∃ d, Written text d ∧ d.magnitude = |(z : ℚ)| ∧
      valueOf text =
        if |(z : ℚ)| < overflow then .float d.nearest else .text (String.ofList text)) ∧
    (∀ text x, valueOf text = .float x → x.isFinite = true) ∧
    (∀ text d, Written text d → overflow ≤ d.magnitude →
      valueOf text = .text (String.ofList text)) ∧
    (∀ sign negative word, SignWritten sign negative → NonFiniteWord word →
      valueOf (sign ++ word) = .text (String.ofList (sign ++ word))) ∧
    (∀ text b, valueOf text = .bool b ↔ text = (toString b).toList) ∧
    (∀ text s, valueOf text = .text s → s.toList = text) :=
  ⟨fun _ _ => valueOf_eq_iff,
    fun _ _ => valueOf_eq_int_iff,
    fun n => valueOf_eq_int_iff.mpr (Decimal.wholeWritten_toString n.toInt),
    fun _ _ => valueOf_of_not_inRange,
    fun _ _ => isFinite_of_valueOf_eq,
    fun _ _ => valueOf_of_overflow,
    fun _ _ _ => valueOf_nonFiniteWord,
    fun _ _ => valueOf_eq_bool_iff,
    fun _ _ => toList_of_valueOf_eq⟩

/-- The number after the largest integer is a float. -/
example : valueOf "9223372036854775808".toList = .float ⟨0x43E0000000000000⟩ := by
  decide +kernel

end EntityBroker.TableManager
