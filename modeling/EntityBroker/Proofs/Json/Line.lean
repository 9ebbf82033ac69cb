import EntityBroker.Program.Printer

/-!
# A document is one line

`Printer.WritesLines` is what a run relies on in a printer: every document has a compact text, and
it is one line. The printer of the program writes so, as it escapes line feeds in texts and writes
nothing else with one (`writesLines_printer`).
-/

namespace EntityBroker.Json

/-- Every document has a compact text, without a line feed in it. -/
def Printer.WritesLines (p : Printer) : Prop :=
  ∀ document, ∃ line, p.compact document = some line ∧ '\n' ∉ line.toList

-- ---------------------------------------------------------------- numbers

theorem newline_not_mem_toDigits (n : Nat) : '\n' ∉ Nat.toDigits 10 n := by
  intro h
  have hdigit : '\n'.isDigit = true := Nat.isDigit_of_mem_toDigits (by decide) (by decide) h
  exact absurd hdigit (by decide)

theorem newline_not_mem_int (n : Int) : '\n' ∉ (toString n).toList := by
  have hnat : ∀ m : Nat, '\n' ∉ (toString m).toList := by
    intro m
    have htext : toString m = String.ofList (Nat.toDigits 10 m) := rfl
    rw [htext, String.toList_ofList]
    exact newline_not_mem_toDigits m
  cases n with
  | ofNat m => exact hnat m
  | negSucc m =>
    have htext : toString (Int.negSucc m) = "-" ++ toString (m + 1) := rfl
    rw [htext, String.toList_append, List.mem_append, not_or]
    exact ⟨by decide, hnat (m + 1)⟩

section
variable {digits : List Char}

theorem newline_not_mem_positional (h : '\n' ∉ digits) (point : Int) :
    '\n' ∉ positional digits point := by
  have htake : '\n' ∉ digits.take point.toNat := fun hmem => h (List.mem_of_mem_take hmem)
  have hdrop : '\n' ∉ digits.drop point.toNat := fun hmem => h (List.mem_of_mem_drop hmem)
  unfold positional
  split
  · simp [h, List.mem_replicate]
  · cases hpart : digits.drop point.toNat with
    | nil => simp [hpart, h, List.mem_replicate]
    | cons first more =>
      rw [hpart] at hdrop
      simpa [hpart, htake] using hdrop

theorem newline_not_mem_scientific (h : '\n' ∉ digits) (exponent : Int) :
    '\n' ∉ scientific digits exponent := by
  have hexponent := newline_not_mem_toDigits exponent.natAbs
  have hsign : '\n' ≠ (if exponent < 0 then '-' else '+') := by split <;> decide
  unfold scientific
  match digits with
  | [] => simp [hexponent, hsign]
  | [single] => simpa [hexponent, hsign] using h
  | first :: other :: more => simpa [hexponent, hsign] using h

end

theorem newline_not_mem_write (format : NumberFormat) (d : Decimal) :
    '\n' ∉ format.write d := by
  have hdigits := newline_not_mem_toDigits d.digits
  have hunsigned : ∀ exponent : Int, '\n' ∉
      if format.positionalFrom ≤ exponent ∧ exponent ≤ format.positionalTo then
        positional (Nat.toDigits 10 d.digits) (exponent + 1)
      else scientific (Nat.toDigits 10 d.digits) exponent := by
    intro exponent
    split
    · exact newline_not_mem_positional hdigits _
    · exact newline_not_mem_scientific hdigits _
  unfold NumberFormat.write
  split
  · exact List.not_mem_cons_of_ne_of_not_mem (by decide) (hunsigned _)
  · exact hunsigned _

-- ---------------------------------------------------------------- text

theorem newline_not_mem_hexByte {n : Nat} (h : n < 0x20) : '\n' ∉ hexByte n := by
  have hdigit : ∀ m < 16, '\n' ≠ Nat.digitChar m := by decide
  have hhigh := hdigit (n / 16) (by omega)
  have hlow := hdigit (n % 16) (by omega)
  simp [hexByte, hhigh, hlow]

theorem newline_not_mem_escape (c : Char) : '\n' ∉ escape c := by
  unfold escape
  repeat' split
  all_goals try decide
  · rename_i hcontrol
    simp [newline_not_mem_hexByte hcontrol]
  · rename_i hnewline _ _ _
    simpa using Ne.symm hnewline

theorem newline_not_mem_quote (s : String) : '\n' ∉ quote s := by
  simp [quote, newline_not_mem_escape]

-- ---------------------------------------------------------------- documents

mutual

theorem newline_not_mem_render : ∀ j : Json, '\n' ∉ j.render
  | .null => by decide
  | .bool b => by cases b <;> decide
  | .int n => newline_not_mem_int n
  | .float x => newline_not_mem_write numberFormat x.shortest
  | .str s => newline_not_mem_quote s
  | .arr items => by simp [render, newline_not_mem_renderItems items]
  | .obj entries => by simp [render, newline_not_mem_renderEntries entries]

theorem newline_not_mem_renderItems : ∀ items : List Json, '\n' ∉ renderItems items
  | [] => List.not_mem_nil
  | [item] => newline_not_mem_render item
  | item :: other :: rest => by
    simp [renderItems, newline_not_mem_render item, newline_not_mem_renderItems (other :: rest)]

theorem newline_not_mem_renderEntries :
    ∀ entries : List (String × Json), '\n' ∉ renderEntries entries
  | [] => List.not_mem_nil
  | [(key, value)] => by
    simp [renderEntries, newline_not_mem_quote key, newline_not_mem_render value]
  | (key, value) :: other :: rest => by
    simp [renderEntries, newline_not_mem_quote key, newline_not_mem_render value,
      newline_not_mem_renderEntries (other :: rest)]

end

theorem newline_not_mem_compact (j : Json) : '\n' ∉ j.compact.toList := by
  rw [compact, String.toList_ofList]
  exact newline_not_mem_render j

theorem writesLines_printer : printer.WritesLines := fun document =>
  ⟨document.compact, rfl, document.newline_not_mem_compact⟩

end EntityBroker.Json
