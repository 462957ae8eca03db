import DiceNotation.Proofs.Reading.Locality
import DiceNotation.Report

/-!
# The caret of a report

The report of a fault that points into a notation shows the notation, indented by two columns, and
below it a caret that is indented by two columns and the position of the fault. Splitting the report
at line feeds gives the lines of the first message, those of the notation, the line of the caret and
the hint (`Complaint.lines_report`).

So what stands above the caret is the last line of the notation. If this is the whole notation, then
the caret is under the character at fault, or right behind the notation if the fault is at its end:
every character, tabs and carriage returns included, takes one column. If the notation has several
lines, then the position still counts from its start, the indentation is that of the first line, and
the caret is under another place (`caret_above`, `caret_beside_second_line`).
-/

set_option autoImplicit false

namespace DiceNotation

namespace Text

/-- The lines of a text: what there is between its line feeds. -/
def lines (text : String) : List (List Char) :=
  text.toList.splitOn '\n'

theorem lines_of_not_mem {text : String} (single : '\n' ∉ text.toList) :
    lines text = [text.toList] :=
  List.splitOn_eq_singleton single

/-- A line feed ends a line. -/
theorem lines_of_toList {text : String} {front rest : List Char}
    (whole : text.toList = front ++ '\n' :: rest) :
    lines text = front.splitOn '\n' ++ rest.splitOn '\n' := by
  rw [lines, whole]
  exact List.splitOnP_append_cons front rest (beq_self_eq_true _)

/-- **Joining texts with line feeds puts their lines one after the other.** -/
theorem lines_intercalate (first : String) (rest : List String) :
    lines ("\n".intercalate (first :: rest)) = (first :: rest).flatMap lines := by
  induction rest generalizing first with
  | nil => simp
  | cons second rest ih =>
      have whole : ("\n".intercalate (first :: second :: rest)).toList =
          first.toList ++ '\n' :: ("\n".intercalate (second :: rest)).toList := by
        simp [String.intercalate_cons_cons]
      rw [lines_of_toList whole, List.flatMap_cons, ← ih second]
      rfl

end Text

/-! ## The lines of a report -/

/-- The line with the caret for a place. -/
def caretLine (offset : Nat) : List Char :=
  List.replicate (offset + 2) ' ' ++ ['^']

namespace Complaint

theorem lines_location (text : String) (offset : Nat) :
    Text.lines (location text offset) = Text.lines ("  " ++ text) ++ [caretLine offset] := by
  have shown : location text offset =
      "  " ++ text ++ "\n  " ++ String.ofList (List.replicate offset ' ') ++ "^" := rfl
  have whole :
      (location text offset).toList = ("  " ++ text).toList ++ '\n' :: caretLine offset := by
    simp [shown, caretLine, List.replicate_succ]
  have single : '\n' ∉ caretLine offset := by simp [caretLine]
  rw [Text.lines_of_toList whole, List.splitOn_eq_singleton single]
  rfl

/-- **The lines of a report that points into a notation.** -/
theorem lines_report {complaint : Complaint} {offset : Nat}
    (place : complaint.position = some (offset : Int)) (text : String) :
    Text.lines (complaint.report (some text)) =
      Text.lines complaint.headline ++ Text.lines ("  " ++ text) ++
        caretLine offset ::
          complaint.hint.toList.flatMap fun hint => Text.lines ("hint: " ++ hint) := by
  have located : complaint.details (some text) =
      location text offset :: (complaint.hint.map ("hint: " ++ ·)).toList := by
    unfold details
    rw [place]
    cases complaint.hint <;> rfl
  rw [report, located, Text.lines_intercalate]
  cases complaint.hint <;> simp [lines_location]

end Complaint

/-- A hint is one line. -/
theorem Fault.not_mem_hint {fault : Fault} {hint : String} (given : fault.hint? = some hint) :
    '\n' ∉ hint.toList := by
  have settings {message : String} (given : settingsHint? message = some hint) :
      '\n' ∉ hint.toList := by
    obtain ⟨-, given⟩ := Option.ite_none_right_eq_some.mp given
    cases given
    decide +kernel
  cases fault with
  | settings defect => exact settings given
  | stated family message position =>
      cases family with
      | configuration => exact settings given
      | _ => cases given
  | rollCount count limit =>
      simp only [hint?] at given
      split at given <;> cases given <;> decide +kernel
  | _ => cases given <;> decide +kernel

/-! ## What the caret points at -/

/-- A line has at some column the character of a text at some offset, or both end there. -/
def PointsAt (above : List Char) (place : Nat) (text : List Char) (offset : Nat) : Prop :=
  (∃ c, text[offset]? = some c ∧ above[place]? = some c) ∨
    offset = text.length ∧ above.length = place

/-- A text that is one line with its indentation has each of its characters two columns further on.
-/
theorem PointsAt.indented {text : List Char} {offset : Nat} (inside : offset ≤ text.length) :
    PointsAt (' ' :: ' ' :: text) (offset + 2) text offset := by
  rcases Nat.lt_or_eq_of_le inside with before | same
  · exact .inl ⟨text[offset], List.getElem?_eq_getElem before, List.getElem?_eq_getElem before⟩
  · exact .inr ⟨same, by rw [same]; rfl⟩

/-- **The caret of a fault in a notation of one line is under the character at fault.**

Whatever the limit, a notation that is not read has a fault that points at one of its characters or
at its end. The report ends with the last line of the notation, the line with the caret and the
hint, if there is one. If the notation is a single line, then the caret is under the character at
fault, or right behind the notation if the fault is at its end.

If the notation has more than one line, then the line above the caret is the last one, without an
indentation, and the caret is where the position would be if that line were the whole notation. The
caret is then under the character at fault only if the same character happens to be there, and it
never is if the fault is at the end. -/
theorem caret_above {text : String} {limit : DepthLimit} {fault : Fault}
    (fails : Expr.parse text limit = .error fault) :
    ∃ offset earlier above, ∃ hints : List (List Char),
      offset ≤ text.toList.length ∧ fault.position? = some (offset : Int) ∧
      Text.lines (fault.complaint.report (some text)) =
        earlier ++ above :: caretLine offset :: hints ∧
      hints = fault.hint?.toList.map (fun hint => ("hint: " ++ hint).toList) ∧
      ('\n' ∉ text.toList → PointsAt above (offset + 2) text.toList offset) ∧
      ∀ front last, text.toList = front ++ '\n' :: last → '\n' ∉ last →
        above = last ∧ (PointsAt above (offset + 2) text.toList offset ↔
          ∃ c, text.toList[offset]? = some c ∧ last[offset + 2]? = some c) := by
  obtain ⟨before, behind, whole, place, -⟩ := exists_lexeme_of_fault fails
  have inside : before.length ≤ text.toList.length := by
    rw [whole, List.length_append]
    exact Nat.le_add_right ..
  have indented : ("  " ++ text).toList = ' ' :: ' ' :: text.toList := by simp
  obtain ⟨upper, above, shown⟩ : ∃ upper above, Text.lines ("  " ++ text) = upper ++ [above] :=
    (List.eq_nil_or_concat' _).resolve_left (List.splitOnP_ne_nil _ _)
  refine ⟨before.length, Text.lines fault.complaint.headline ++ upper, above, _, inside, place, ?_,
    rfl, fun single => ?_, fun front last split ends => ?_⟩
  · have hints : fault.hint?.toList.flatMap (fun hint => Text.lines ("hint: " ++ hint)) =
        fault.hint?.toList.map fun hint => ("hint: " ++ hint).toList := by
      cases given : fault.hint? with
      | none => rfl
      | some hint =>
          have single : '\n' ∉ ("hint: " ++ hint).toList := by
            simp [Fault.not_mem_hint given]
          simp [Text.lines_of_not_mem single]
    rw [Complaint.lines_report place, shown, show fault.complaint.hint = fault.hint? from rfl,
      hints]
    simp
  · have one : '\n' ∉ ("  " ++ text).toList := by simp [single]
    rw [Text.lines_of_not_mem one, ← List.nil_append [_]] at shown
    obtain ⟨-, same⟩ := List.append_singleton_inj.mp shown
    rw [← same, indented]
    exact .indented inside
  · have parts : ("  " ++ text).toList = (' ' :: ' ' :: front) ++ '\n' :: last := by
      rw [indented, split]
      rfl
    rw [Text.lines_of_toList parts, List.splitOn_eq_singleton ends] at shown
    obtain ⟨-, rfl⟩ := List.append_singleton_inj.mp shown
    refine ⟨rfl, ?_⟩
    have shorter : last.length < text.toList.length := by
      rw [split, List.length_append, List.length_cons]
      omega
    unfold PointsAt
    refine or_iff_left fun both => ?_
    omega

/-- Tabs and carriage returns take one column each. -/
theorem caret_above_end_of_tabbed :
    let text := "1\t+\r"
    let fault := Fault.endOfInput "operand" (.endOfInput 4)
    Expr.parse text = .error fault ∧
      ∃ earlier above, ∃ hints : List (List Char),
        Text.lines (fault.complaint.report (some text)) =
          earlier ++ above :: caretLine 4 :: hints ∧
        PointsAt above 6 text.toList 4 := by
  intro text fault
  have fails : Expr.parse text = .error fault := by cbv
  obtain ⟨offset, earlier, above, hints, -, place, shown, -, points, -⟩ := caret_above fails
  have same : (4 : Int) = (offset : Int) := Option.some.inj place
  obtain rfl : 4 = offset := by omega
  exact ⟨fails, earlier, above, hints, shown, points (by decide)⟩

/-- **The caret of a fault in a second line is not under the character at fault.** Here it stands
four columns behind the end of the line, where the fault is. -/
theorem caret_beside_second_line :
    let text := "1\n+"
    let fault := Fault.endOfInput "operand" (.endOfInput 3)
    Expr.parse text = .error fault ∧
      fault.position? = some 3 ∧ text.toList.length = 3 ∧
      Text.lines (fault.complaint.report (some text)) =
        ["error: Unexpected end of input at position 3: expected operand".toList, "  1".toList,
          "+".toList, caretLine 3,
          "hint: every operator needs a number or roll after it, e.g. `1d6`".toList] ∧
      ¬ PointsAt "+".toList 5 text.toList 3 := by
  intro text fault
  have fails : Expr.parse text = .error fault := by cbv
  refine ⟨fails, rfl, by decide, by decide +kernel, ?_⟩
  simp [PointsAt, text]

end DiceNotation
