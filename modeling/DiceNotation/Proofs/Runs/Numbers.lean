import DiceNotation.Proofs.Runs.Verbosity

/-!
# Numbers among the options

An option that takes a number has the number that its value is read as. A value is read only if it
has few enough digits, so the number can be written again (`Text.isWritable_of_readInteger`). An
option is left without a number only by a host that drops its value. Both facts hold of the options
of every request (`Request.numbered_of_ofArguments`), because every option that takes effect keeps
them.
-/

set_option autoImplicit false

namespace DiceNotation

/-! ## Reading a number -/

namespace Text

theorem decimalValue?_lt {c : Char} {value : Nat} (read : decimalValue? c = some value) :
    value < 10 := by
  obtain ⟨first, found, rfl⟩ := Option.map_eq_some_iff.mp read
  have inRun := List.find?_some found
  simp only [Bool.and_eq_true, decide_eq_true_eq] at inRun
  omega

/-- A number that is read has no more digits than were read for it. -/
theorem readDigits_lt {digits : List Char} {value count result total most : Nat}
    (small : value < 10 ^ count) (read : readDigits value count digits = some (result, total))
    (few : total ≤ most) : result < Nat.pow 10 most := by
  have more {value count next : Nat} (small : value < 10 ^ count) (digit : next < 10) :
      value * 10 + next < 10 ^ (count + 1) := by
    rw [Nat.pow_succ]
    omega
  induction value, count, digits using readDigits.induct with
  | case1 value count =>
      cases read
      exact small.trans_le (Nat.pow_le_pow_right (by decide) few)
  | case2 value count digit rest ih =>
      rw [readDigits] at read
      obtain ⟨next, here, read⟩ := Option.bind_eq_some_iff.mp read
      exact ih next (more small (decimalValue?_lt here)) read
  | case3 value count digit rest single ih =>
      rw [readDigits.eq_3 _ _ _ _ single] at read
      obtain ⟨next, here, read⟩ := Option.bind_eq_some_iff.mp read
      exact ih next (more small (decimalValue?_lt here)) read

theorem readNatural_lt {digits : List Char} {value : Nat} (read : readNatural digits = some value) :
    value < Nat.pow 10 maxDigits := by
  cases digits with
  | nil => cases read
  | cons digit rest =>
      rw [readNatural] at read
      obtain ⟨first, here, read⟩ := Option.bind_eq_some_iff.mp read
      obtain ⟨⟨result, total⟩, digits, read⟩ := Option.bind_eq_some_iff.mp read
      obtain ⟨few, same⟩ := Option.ite_none_right_eq_some.mp read
      obtain rfl := Option.some.inj same
      exact readDigits_lt (by simpa using decimalValue?_lt here) digits few

/-- **A number that is read can be written.** -/
theorem isWritable_of_readInteger {text : String} {value : Int}
    (read : readInteger text = some value) : isWritable value = true := by
  have short {digits : List Char} {number : Nat} (read : readNatural digits = some number) :
      isWritable number = true := by
    rw [isWritable, decide_eq_true_eq, Int.natAbs_natCast]
    exact readNatural_lt read
  unfold readInteger at read
  simp only at read
  split at read
  · obtain ⟨number, digits, rfl⟩ := Option.map_eq_some_iff.mp read
    exact short digits
  · obtain ⟨number, digits, rfl⟩ := Option.map_eq_some_iff.mp read
    rw [isWritable, Int.natAbs_neg]
    exact short digits
  · obtain ⟨number, digits, rfl⟩ := Option.map_eq_some_iff.mp read
    exact short digits

end Text

namespace CommandLine

variable {keeps : Bool} {form : Form}

/-! ## Values of options -/

/-- An option that takes a value has one. -/
def Valued (use : Flag × Option String) : Prop :=
  use.1.takesValue = true → use.2.isSome = true

theorem valued_of_useAlone {flag : Flag} {following : List Item} {use : OptionUse}
    (used : useAlone form flag following = .ok use) : ∀ each ∈ use.uses, Valued each := by
  unfold useAlone at used
  split at used
  · split at used <;> cases used
    simp [Valued]
  · rename_i none
    cases used
    simpa [Valued] using none

theorem valued_of_useAttached {following : List Item} {text : List Char} :
    ∀ {flag : Flag} {isShort : Bool} {use : OptionUse},
      useAttached form following flag isShort text = .ok use → ∀ each ∈ use.uses, Valued each := by
  induction text with
  | nil =>
      intro flag isShort use used
      unfold useAttached at used
      split at used
      · cases used
        simp [Valued]
      · simp at used
  | cons c rest ih =>
      intro flag isShort use used
      unfold useAttached at used
      split at used
      · cases used
        simp [Valued]
      · rename_i valueless
        have here : Valued (flag, none) := fun takes => absurd takes valueless
        cases isShort with
        | false => cases used
        | true =>
            simp only at used
            split at used
            · cases used
            · rename_i next known
              split at used
              · obtain ⟨inner, ended, made⟩ := exists_of_bind_eq_ok used
                cases made
                exact List.forall_mem_cons.mpr ⟨here, valued_of_useAlone ended⟩
              · obtain ⟨inner, ended, made⟩ := exists_of_bind_eq_ok used
                cases made
                exact List.forall_mem_cons.mpr ⟨here, ih ended⟩

theorem valued_of_useOption {flag : Flag} {spelling : String} {attached : Option String}
    {following : List Item} {use : OptionUse}
    (used : useOption form flag spelling attached following = .ok use) :
    ∀ each ∈ use.uses, Valued each := by
  cases attached with
  | none => exact valued_of_useAlone used
  | some text => exact valued_of_useAttached used

/-! ## Options that take effect -/

/-- A number that an option says, on a host that keeps the values of options or drops some. -/
structure NumberOption.IsRead (keeps : Bool) (option : NumberOption) : Prop where
  writable : ∀ value, option = .number value → Text.isWritable value = true
  kept : keeps = true → option ≠ .empty

/-- The numbers among some options have been read, and are there if the host keeps them. -/
structure Options.Numbered (keeps : Bool) (options : Options) : Prop where
  seed : options.seed.IsRead keeps
  maxDice : options.maxDice.IsRead keeps

theorem NumberOption.isRead_absent : absent.IsRead keeps :=
  ⟨nofun, fun _ => nofun⟩

theorem NumberOption.isRead_of_numberOf {flag : Flag} {value : Option String}
    {option : NumberOption} (given : value.isSome = true)
    (read : numberOf form flag (keptValue keeps value) = .ok option) : option.IsRead keeps := by
  obtain ⟨text, rfl⟩ := Option.isSome_iff_exists.mp given
  unfold numberOf at read
  split at read
  · rename_i dropped
    cases read
    refine ⟨nofun, fun kept => ?_⟩
    rw [kept] at dropped
    cases dropped
  · split at read
    · rename_i number digits
      cases read
      refine ⟨?_, fun _ => nofun⟩
      rintro _ ⟨⟩
      exact Text.isWritable_of_readInteger digits
    · cases read

/-- **Every option that takes effect leaves numbers that have been read.** -/
theorem Options.Numbered.apply {options after : Options} {use : Flag × Option String}
    (numbered : options.Numbered keeps) (valued : Valued use)
    (applied : Options.apply keeps form options use = .ok after) : after.Numbered keeps := by
  obtain ⟨flag, value⟩ := use
  cases flag with
  | help | version => cases applied
  | root | config | verbose | json | rolls | tree =>
      cases applied
      exact ⟨numbered.seed, numbered.maxDice⟩
  | seed =>
      simp only [Options.apply] at applied
      cases read : numberOf form .seed (keptValue keeps value) with
      | error stop => simp [read, Except.map] at applied
      | ok option =>
          rw [read] at applied
          cases applied
          exact ⟨NumberOption.isRead_of_numberOf (valued rfl) read, numbered.maxDice⟩
  | maxDice =>
      simp only [Options.apply] at applied
      cases read : numberOf form .maxDice (keptValue keeps value) with
      | error stop => simp [read, Except.map] at applied
      | ok option =>
          rw [read] at applied
          cases applied
          exact ⟨numbered.seed, NumberOption.isRead_of_numberOf (valued rfl) read⟩

theorem Options.Numbered.foldlM {uses : List (Flag × Option String)}
    (valued : ∀ use ∈ uses, Valued use) {options after : Options}
    (numbered : options.Numbered keeps)
    (applied : uses.foldlM (Options.apply keeps form) options = .ok after) :
    after.Numbered keeps := by
  induction uses generalizing options with
  | nil =>
      cases applied
      exact numbered
  | cons use rest ih =>
      obtain ⟨valuedUse, valuedRest⟩ := List.forall_mem_cons.mp valued
      rw [List.foldlM_cons] at applied
      obtain ⟨next, here, applied⟩ := exists_of_bind_eq_ok applied
      exact ih valuedRest (numbered.apply valuedUse here) applied

/-! ## Options of a request -/

/-- **The second pass leaves numbers that have been read.** -/
theorem numbered_of_collect {items : List Item} {before after : Arguments}
    (numbered : before.options.Numbered keeps)
    (read : collect keeps form before items = .ok after) : after.options.Numbered keeps := by
  induction items using (measure List.length).wf.induction generalizing before with
  | _ items ih =>
      match items with
      | [] =>
          rw [collect] at read
          cases read
          exact numbered
      | .option ⟨written, none, attached⟩ :: rest =>
          rw [collect] at read
          refine ih rest (Nat.lt_succ_self _) ?_ read
          exact numbered
      | .option ⟨written, some (flag, spelling), attached⟩ :: rest =>
          rw [collect] at read
          cases used : useOption form flag spelling attached rest with
          | error stop => simp [used] at read
          | ok use =>
              simp only [used] at read
              cases applied : use.uses.foldlM (Options.apply keeps form) before.options with
              | error stop => simp [applied] at read
              | ok options =>
                  simp only [applied] at read
                  have shorter : (rest.drop use.taken).length < rest.length + 1 := by
                    rw [List.length_drop]
                    omega
                  refine ih _ shorter ?_ read
                  exact numbered.foldlM (valued_of_useOption used) applied
      | .word text :: rest | .separator :: rest =>
          have shorter : (rest.dropWhile (!Item.isOption ·)).length < rest.length + 1 :=
            Nat.lt_succ_of_le (List.dropWhile_sublist _).length_le
          rw [collect_cons_of_isOption_eq_false rfl] at read
          simp only at read
          split at read
          · rename_i label choices wanted
            cases found : operandWords form (.command label choices) _ with
            | error stop =>
                rw [found] at read
                cases read
            | ok words =>
                rw [found] at read
                cases read
                exact numbered
          · split at read
            · cases read
            · refine ih _ shorter ?_ read
              exact numbered
          · refine ih _ shorter ?_ read
            exact numbered

theorem numbered_of_read {arguments : List String} {after : Arguments}
    (read : form.read keeps arguments = .ok after) : after.options.Numbered keeps := by
  obtain ⟨items, -, read⟩ := exists_of_bind_eq_ok read
  obtain ⟨collected, passed, read⟩ := exists_of_bind_eq_ok read
  have numbered : ({} : Arguments).options.Numbered keeps :=
    ⟨NumberOption.isRead_absent, NumberOption.isRead_absent⟩
  split at read
  · cases read
  · cases read
    exact numbered_of_collect numbered passed

/-- The options of a request. -/
def Request.options : Request → Options
  | roll options _ => options
  | parse options _ => options
  | serve options => options

theorem Request.eq_of_without {strays : List String} {request made : Request}
    (taken : Request.without strays request = .ok made) : made = request := by
  unfold Request.without at taken
  split at taken <;> cases taken
  rfl

/-- **The numbers among the options of a request have been read.** -/
theorem Request.numbered_of_ofArguments {arguments : List String} {request : Request}
    (accepted : Request.ofArguments keeps arguments = .ok request) :
    request.options.Numbered keeps := by
  obtain ⟨outer, -, accepted⟩ := exists_of_bind_eq_ok accepted
  split at accepted
  · obtain ⟨inner, read, taken⟩ := exists_of_bind_eq_ok accepted
    obtain rfl := Request.eq_of_without taken
    exact numbered_of_read read
  · obtain ⟨inner, read, taken⟩ := exists_of_bind_eq_ok accepted
    obtain rfl := Request.eq_of_without taken
    exact numbered_of_read read
  · obtain ⟨commands, -, accepted⟩ := exists_of_bind_eq_ok accepted
    obtain ⟨inner, read, taken⟩ := exists_of_bind_eq_ok accepted
    obtain rfl := Request.eq_of_without taken
    exact numbered_of_read read

end CommandLine

end DiceNotation
