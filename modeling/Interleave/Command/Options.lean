/-!
# Options

The words after the name of a command are options: `--name` for a flag, and `--name value` or
`--name=value` for the others. A value after a blank must not look like an option, unless the option
takes numbers, which may have a minus sign. Two dashes alone end the options; nothing may follow them.
-/
namespace Interleave

/-- What an option takes. -/
inductive Operand where
  | nothing
  | word
  | number
  deriving DecidableEq, Repr

/-- An option of a command. -/
structure OptionRule where
  name : String
  operand : Operand
  /-- The option may be given several times. -/
  repeatable : Bool := false
  deriving Repr

namespace OptionRule

def flag (name : String) : OptionRule := { name, operand := .nothing }

def word (name : String) : OptionRule := { name, operand := .word }

def number (name : String) : OptionRule := { name, operand := .number }

/-- An option that takes a word each time it is given. -/
def words (name : String) : OptionRule := { name, operand := .word, repeatable := true }

end OptionRule

/-- An option as it was given. A flag has no text. -/
structure Given where
  name : String
  text : String := ""
  deriving DecidableEq, Repr

namespace Options

/-- The word looks like an option. A dash alone does not. -/
def isOptionLike (word : String) : Bool :=
  match word.toList with
  | '-' :: _ :: _ => true
  | _ => false

/-- The name of an option and the value attached to it. -/
def split? (word : String) : Option (String × Option String) :=
  match word.toList with
  | '-' :: '-' :: cs =>
    let name := String.ofList (cs.takeWhile (· ≠ '='))
    match cs.dropWhile (· ≠ '=') with
    | [] => some (name, none)
    | _ :: value => some (name, some (String.ofList value))
  | _ => none

/-- The options that words give, in their order. -/
def readGiven (rules : List OptionRule) : List String → Option (List Given)
  | [] => some []
  | word :: words =>
    if word = "--" then if words = [] then some [] else none
    else
      match split? word with
      | none => none
      | some (name, attached) =>
        match rules.find? (·.name = name), attached with
        | none, _ => none
        | some rule, some value =>
          if rule.operand = .nothing then none
          else (readGiven rules words).map (⟨name, value⟩ :: ·)
        | some rule, none =>
          if rule.operand = .nothing then (readGiven rules words).map (⟨name, ""⟩ :: ·)
          else
            match words with
            | [] => none
            | value :: words =>
              if isOptionLike value && rule.operand = .word then none
              else (readGiven rules words).map (⟨name, value⟩ :: ·)

/-- No option is given twice but the repeatable ones. -/
def areSingle (rules : List OptionRule) (given : List Given) : Bool :=
  rules.all fun rule => rule.repeatable || (given.filter (·.name = rule.name)).length ≤ 1

/-- The options that words give, none of them too often. -/
def ofWords? (rules : List OptionRule) (words : List String) : Option (List Given) :=
  (readGiven rules words).filter (areSingle rules)

variable {α : Type}

def has (given : List Given) (name : String) : Bool := given.any (·.name = name)

def texts (given : List Given) (name : String) : List String :=
  (given.filter (·.name = name)).map (·.text)

def optional (given : List Given) (name : String) (read : String → Option α) : Option (Option α) :=
  match texts given name with
  | [] => some none
  | text :: _ => (read text).map some

/-- An option with a value for when it is left out. -/
def withDefault (given : List Given) (name : String) (read : String → Option α) (default : α) :
    Option α :=
  (optional given name read).map (·.getD default)

def required (given : List Given) (name : String) (read : String → Option α) : Option α :=
  (optional given name read).join

def text (word : String) : Option String := some word

/-- A path, which is not empty. -/
def path? (word : String) : Option String := if word = "" then none else some word

end Options

end Interleave
