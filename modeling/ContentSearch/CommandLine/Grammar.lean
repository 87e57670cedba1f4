import ContentSearch.Text.Basic

/-!
Reading the arguments of a command. A long option is `--name`, with a value in the next argument or
after `=`; a short one is `-n`, with a value in the next argument, directly after it, or after `=`;
several short options may share one dash. A value in an argument of its own does not begin with a
dash, unless it is `-` itself. After `--` there are no options. The name of a subcommand, where an
option or a value could stand, ends the arguments of the command.

* `Grammar.read`: what a list of arguments means for a command.
-/

namespace ContentSearch.CommandLine

/-- What an option does to what has been read before it, unless it is refused. -/
inductive OptionAction (s : Type) where
  | flag (apply : s → Option s)
  | value (apply : Text → s → Option s)
  | help
  | version

structure OptionSpec (s : Type) where
  long : String
  short : Option Char
  action : OptionAction s

/-- What arguments a command takes. -/
structure Grammar (s : Type) where
  options : List (OptionSpec s)
  /-- Takes an argument that is not an option. -/
  positional : Text → s → Option s
  subcommands : List String

/-- What the arguments of a command mean. -/
inductive Reading (s : Type) where
  | done (state : s)
  /-- The arguments after the name of a subcommand are left; `state` is none if the value before
  that name was refused. -/
  | subcommand (name : Text) (rest : List Text) (state : Option s)
  | help
  | version
  | refused

/-- What one argument means. -/
inductive Step (s : Type) where
  /-- Reading goes on; none if the value is refused. -/
  | next (state : Option s)
  | needsValue (apply : Text → s → Option s) (state : s)
  | help
  | version
  | refused

def Step.attached {s : Type} : Option s → Step s
  | some state => .next (some state)
  | none => .refused

namespace Grammar

variable {s : Type}

def long? (g : Grammar s) (name : Text) : Option (OptionAction s) :=
  (g.options.find? fun o => o.long.toList = name).map (·.action)

def short? (g : Grammar s) (c : Char) : Option (OptionAction s) :=
  (g.options.find? fun o => o.short = some c).map (·.action)

def longStep (g : Grammar s) (state : s) (body : Text) : Step s :=
  let (name, value?) := match Text.splitFirst? '=' body with
    | some (name, value) => (name, some value)
    | none => (body, none)
  match g.long? name, value? with
  | some (.value apply), some value => .attached (apply value state)
  | some (.value apply), none => .needsValue apply state
  | some (.flag apply), none => .attached (apply state)
  | some .help, none => .help
  | some .version, none => .version
  | _, _ => .refused

/-- The step for the short options that share a dash. -/
def shortStep (g : Grammar s) (state : s) : Text → Step s
  | [] => .next (some state)
  | c :: rest =>
    match g.short? c with
    | none => .refused
    | some .help => .help
    | some .version => .version
    | some (.flag apply) =>
      match apply state with
      | some state => g.shortStep state rest
      | none => .refused
    | some (.value apply) =>
      match rest with
      | [] => .needsValue apply state
      | '=' :: value => .attached (apply value state)
      | value => .attached (apply value state)

def isOption : Text → Bool
  | '-' :: _ :: _ => true
  | _ => false

def step (g : Grammar s) (state : s) (a : Text) : Step s :=
  match a with
  | '-' :: '-' :: body => g.longStep state body
  | '-' :: c :: rest => g.shortStep state (c :: rest)
  | _ => .next (g.positional a state)

/-- What arguments after which there are no options mean. -/
def readPositionals (g : Grammar s) (state : Option s) : List Text → Reading s
  | [] =>
    match state with
    | some state => .done state
    | none => .refused
  | a :: rest => g.readPositionals (state.bind (g.positional a)) rest

/-- What arguments mean after those that have given `state`, which is none if the last value was
refused. -/
def read (g : Grammar s) (state : Option s) : List Text → Reading s
  | [] => g.readPositionals state []
  | a :: rest =>
    if g.subcommands.any fun name => name.toList = a then .subcommand a rest state
    else
      match state with
      | none => .refused
      | some state =>
        if a = "--".toList then g.readPositionals (some state) rest
        else
          match g.step state a with
          | .next state => g.read state rest
          | .needsValue apply state =>
            match rest with
            | [] => .refused
            | value :: rest => if isOption value then .refused else g.read (apply value state) rest
          | .help => .help
          | .version => .version
          | .refused => .refused

end Grammar
end ContentSearch.CommandLine
