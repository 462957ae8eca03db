import DiceNotation.CommandLine.Request
import Mathlib

/-!
# Asking for the log

The option for the log can be put right behind the command that rolls a notation. The whole program
does not know it and hands it on with the other arguments, as they are written
(`written_of_itemise`). The command does know it, and lets it take effect before the others, none of
which takes it back (`collect_verbosely`). So with the option the same request is read, but for the
log, or the reading stops in the same way (`ofArguments_verbosely`).
-/

set_option autoImplicit false

namespace DiceNotation.CommandLine

/-- Options together with the one for the log. -/
def Options.verbosely (options : Options) : Options :=
  { options with verbose := true }

/-- Arguments together with the option for the log. -/
def Arguments.verbosely (arguments : Arguments) : Arguments :=
  { arguments with options := arguments.options.verbosely }

/-- A request together with the option for the log, if it is to roll a notation. -/
def Request.verbosely : Request → Request
  | roll options text => roll options.verbosely text
  | request => request

/-! ## Arguments that are handed on -/

variable {keeps : Bool} {form : Form} {text : String} {arguments rest : List String}

theorem written_of_mem_candidates {given : OptionWord} (member : given ∈ candidates form text) :
    given.written = text := by
  unfold candidates at member
  split at member
  · obtain ⟨entry, -, made⟩ := List.mem_filterMap.mp member
    obtain ⟨-, made⟩ := Option.ite_none_right_eq_some.mp made
    cases made
    rfl
  · obtain ⟨entry, -, made⟩ := List.mem_filterMap.mp member
    split at made
    · cases made
      rfl
    · split at made <;> cases made
      rfl

theorem written_of_guess {item : Item} (guessed : guess form text = .ok item) :
    item.written = text := by
  unfold guess at guessed
  split at guessed
  · rename_i given only
    cases guessed
    have member : given ∈ candidates form text := by
      rw [only]
      exact List.mem_singleton_self given
    exact written_of_mem_candidates member
  · split at guessed <;> cases guessed <;> rfl
  · cases guessed

/-- An argument is written as it is, whatever it is taken for. -/
theorem written_of_classify {item : Item} (classified : classify form text = .ok item) :
    item.written = text := by
  unfold classify at classified
  split at classified
  · cases classified
    rfl
  · split at classified
    · cases classified
      rfl
    · split at classified
      · cases classified
        rfl
      · split at classified
        · split at classified
          · cases classified
            rfl
          · exact written_of_guess classified
        · exact written_of_guess classified

/-- What goes on without a stop has not stopped before. -/
theorem exists_of_bind_eq_ok {α β : Type} {first : Except Stop α} {next : α → Except Stop β}
    {result : β} (ended : first.bind next = .ok result) :
    ∃ value, first = .ok value ∧ next value = .ok result := by
  cases first with
  | error stop => cases ended
  | ok value => exact ⟨value, rfl, ended⟩

/-- The first pass reads one argument after the other, as long as they may be options. -/
theorem itemise_cons (other : text ≠ "--") :
    itemise form (text :: rest) =
      (classify form text).bind fun item => (itemise form rest).map (item :: ·) := by
  have differ : (text == "--") = false := beq_false_of_ne other
  rw [itemise, differ]
  simp only [Bool.false_eq_true, if_false]
  cases classify form text with
  | error stop => rfl
  | ok item => cases itemise form rest <;> rfl

/-- **The first pass loses nothing of the arguments.** -/
theorem written_of_itemise {items : List Item} (read : itemise form arguments = .ok items) :
    items.map Item.written = arguments := by
  induction arguments generalizing items with
  | nil =>
      cases read
      rfl
  | cons text rest ih =>
      by_cases separates : text = "--"
      · subst separates
        cases read
        simp [Item.written, Function.comp_def]
      · rw [itemise_cons separates] at read
        obtain ⟨item, classified, read⟩ := exists_of_bind_eq_ok read
        cases behind : itemise form rest with
        | error stop =>
            rw [behind] at read
            cases read
        | ok others =>
            rw [behind] at read
            cases read
            rw [List.map_cons, written_of_classify classified, ih behind]

/-- What the second pass does at an argument that is no option. -/
theorem collect_cons_of_isOption_eq_false {read : Arguments} {first : Item} {items : List Item}
    (other : first.isOption = false) :
    collect keeps form read (first :: items) =
      let run := first :: items.takeWhile (!Item.isOption ·)
      let later := items.dropWhile (!Item.isOption ·)
      match if read.words.isNone && run.any Item.isWord then form.operand else none with
      | some (.command label choices) =>
        (operandWords form (.command label choices) (first :: items)).map fun words =>
          { read with words := some words }
      | some (.words label) =>
        match operandWords form (.words label) run with
        | .error stop => .error stop
        | .ok words => collect keeps form { read with words := some words } later
      | none =>
        collect keeps form { read with strays := read.strays ++ run.map Item.written } later := by
  cases first with
  | option given => cases other
  | word text => exact collect.eq_4 keeps form read (.word text) items (by simp) (by simp)
  | separator => exact collect.eq_4 keeps form read .separator items (by simp) (by simp)

/-- **The whole program hands on the arguments of the command that rolls a notation**, unless one of
them keeps it from reading any. -/
theorem read_top_roll :
    Form.top.read keeps ("roll" :: rest) =
      (itemise .top rest).map fun _ => { words := some ("roll" :: rest) } := by
  have word : classify .top "roll" = .ok (.word "roll") := by cbv
  rw [Form.read, itemise_cons (by decide), word]
  cases read : itemise .top rest with
  | error stop => rfl
  | ok items =>
      have written : (Item.word "roll" :: items).map Item.written = "roll" :: rest :=
        congrArg (List.cons "roll") (written_of_itemise read)
      have collected : collect keeps .top {} (.word "roll" :: items) =
          .ok { words := some ("roll" :: rest) } := by
        rw [collect_cons_of_isOption_eq_false rfl, ← written]
        rfl
      simp only [Except.bind, Except.map, bind, collected]
      rfl

/-! ## The option for the log -/

/-- Every option has the same effect with the log as without. -/
theorem apply_verbosely (options : Options) (use : Flag × Option String) :
    Options.apply keeps form options.verbosely use =
      (Options.apply keeps form options use).map Options.verbosely := by
  obtain ⟨flag, value⟩ := use
  cases flag with
  | seed =>
      simp only [Options.apply]
      cases numberOf form .seed (keptValue keeps value) <;> rfl
  | maxDice =>
      simp only [Options.apply]
      cases numberOf form .maxDice (keptValue keeps value) <;> rfl
  | _ => rfl

theorem foldlM_verbosely (uses : List (Flag × Option String)) (options : Options) :
    uses.foldlM (Options.apply keeps form) options.verbosely =
      (uses.foldlM (Options.apply keeps form) options).map Options.verbosely := by
  induction uses generalizing options with
  | nil => rfl
  | cons use rest ih =>
      rw [List.foldlM_cons, List.foldlM_cons, apply_verbosely]
      cases Options.apply keeps form options use with
      | error stop => rfl
      | ok next => exact ih next

/-- **The second pass reads the same with the log as without.** -/
theorem collect_verbosely (read : Arguments) (items : List Item) :
    collect keeps form read.verbosely items =
      (collect keeps form read items).map Arguments.verbosely := by
  induction items using (measure List.length).wf.induction generalizing read with
  | _ items ih =>
      match items with
      | [] =>
          rw [collect, collect]
          rfl
      | .option ⟨written, none, attached⟩ :: rest =>
          rw [collect, collect]
          exact ih rest (Nat.lt_succ_self _) { read with strays := read.strays ++ [written] }
      | .option ⟨written, some (flag, spelling), attached⟩ :: rest =>
          rw [collect, collect]
          cases useOption form flag spelling attached rest with
          | error stop => rfl
          | ok use =>
              simp only [Arguments.verbosely, foldlM_verbosely]
              cases use.uses.foldlM (Options.apply keeps form) read.options with
              | error stop => rfl
              | ok options =>
                  have shorter : (rest.drop use.taken).length < rest.length + 1 := by
                    rw [List.length_drop]
                    omega
                  exact ih _ shorter { read with options }
      | .word text :: rest | .separator :: rest =>
          have shorter : (rest.dropWhile (!Item.isOption ·)).length < rest.length + 1 :=
            Nat.lt_succ_of_le (List.dropWhile_sublist _).length_le
          rw [collect_cons_of_isOption_eq_false rfl, collect_cons_of_isOption_eq_false rfl]
          simp only
          rw [show read.verbosely.words = read.words from rfl]
          split
          · rename_i label choices wanted
            cases operandWords form (.command label choices) _ <;> rfl
          · rename_i label wanted
            cases operandWords form (.words label) _ with
            | error stop => rfl
            | ok words => exact ih _ shorter { read with words := some words }
          · exact ih _ shorter { read with strays := read.strays ++ _ }

/-- The command reads the option for the log and then the rest as without. -/
theorem read_roll_verbosely :
    Form.roll.read keeps ("-v" :: rest) = (Form.roll.read keeps rest).map Arguments.verbosely := by
  have known : classify .roll "-v" = .ok (.option ⟨"-v", some (.verbose, "-v"), none⟩) := by cbv
  rw [Form.read, Form.read, itemise_cons (by decide), known]
  cases itemise .roll rest with
  | error stop => rfl
  | ok items =>
      have first : collect keeps .roll {} (.option ⟨"-v", some (.verbose, "-v"), none⟩ :: items) =
          (collect keeps .roll {} items).map Arguments.verbosely := by
        rw [collect, ← collect_verbosely]
        rfl
      simp only [Except.bind, Except.map, bind] at first ⊢
      rw [first]
      cases collect keeps .roll {} items with
      | error stop => rfl
      | ok read =>
          obtain ⟨options, words, strays⟩ := read
          cases words <;> rfl

/-- The whole program takes the option for the log as one that is not its own. -/
theorem itemise_top_verbosely :
    itemise .top ("-v" :: rest) =
      (itemise .top rest).map (.option ⟨"-v", none, none⟩ :: ·) := by
  have stray : classify .top "-v" = .ok (.option ⟨"-v", none, none⟩) := by cbv
  rw [itemise_cons (by decide), stray]
  rfl

/-- What the program makes of the arguments behind the command that rolls a notation. -/
theorem ofArguments_roll :
    Request.ofArguments keeps ("roll" :: rest) =
      (itemise .top rest).bind fun _ => (Form.roll.read keeps rest).bind fun inner =>
        Request.without inner.strays (.roll inner.options (notationText inner)) := by
  rw [Request.ofArguments, read_top_roll]
  cases itemise .top rest with
  | error stop => rfl
  | ok items => rfl

/-- Whether arguments are accepted as a request can be decided, though a refusal cannot be compared.
-/
theorem Request.ofArguments_eq_ok {arguments : List String} {request : Request}
    (evaluated : (ofArguments keeps arguments).toOption = some request) :
    ofArguments keeps arguments = .ok request := by
  cases read : ofArguments keeps arguments with
  | error stop =>
      rw [read] at evaluated
      cases evaluated
  | ok other =>
      rw [read] at evaluated
      exact congrArg Except.ok (Option.some.inj evaluated)

/-- **The option for the log changes nothing but the log in what is asked for.** -/
theorem ofArguments_verbosely (keeps : Bool) (rest : List String) :
    Request.ofArguments keeps ("roll" :: "-v" :: rest) =
      (Request.ofArguments keeps ("roll" :: rest)).map Request.verbosely := by
  rw [ofArguments_roll, ofArguments_roll, itemise_top_verbosely, read_roll_verbosely]
  cases itemise .top rest with
  | error stop => rfl
  | ok items =>
      cases Form.roll.read keeps rest with
      | error stop => rfl
      | ok inner =>
          obtain ⟨options, words, strays⟩ := inner
          cases strays <;> rfl

/-- Behind the command that rolls a notation, nothing else is asked for. -/
theorem exists_roll_of_ofArguments {request : Request}
    (read : Request.ofArguments keeps ("roll" :: rest) = .ok request) :
    ∃ options text, request = .roll options text := by
  rw [ofArguments_roll] at read
  obtain ⟨items, -, read⟩ := exists_of_bind_eq_ok read
  obtain ⟨inner, -, read⟩ := exists_of_bind_eq_ok read
  unfold Request.without at read
  split at read <;> cases read
  exact ⟨_, _, rfl⟩

end DiceNotation.CommandLine
