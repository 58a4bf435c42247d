import Erd.CommandLine.Item

/-!
# Scanning arguments

The arguments are taken one after another. The first plain one is the operand, and two hyphens next to it
go with it; an option that takes a value takes it from its own argument or from the next one. What fits
nowhere is left over. An option that ends the program does so when its turn comes, so that what is wrong
further on is never told.
-/
namespace Erd.CommandLine

/-- An option with its value; the value of an option that takes none is empty. -/
abbrev Setting := Opt × String

/-- What an argument with options comes to. -/
structure Taken where
  settings : List Setting := []
  /-- The option whose value the next argument has to be. -/
  waiting : Option Opt := none
  /-- What is no option's. -/
  extra : Option String := none
  deriving DecidableEq, Repr

/-- With a setting in front. -/
def Taken.after (p : Setting) (t : Taken) : Taken := { t with settings := p :: t.settings }

/-- An option without a value of its own. -/
def takenAlone (o : Opt) : Taken :=
  if o.takesValue then { waiting := some o } else { settings := [(o, "")] }

/-- An option with a value after an equals sign. -/
def takenAssigned (o : Opt) (text : List Char) : Except Misuse Taken :=
  if o.takesValue then .ok { settings := [(o, String.ofList text)] }
  else .error (.unusedValue o.label (String.ofList text))

/-- A short option with text directly after it: its value, or further short options. -/
def takenAttached (g : Grammar) (o : Opt) : List Char → Except Misuse Taken
  | [] => .ok (takenAlone o)
  | c :: text =>
    if o.takesValue then .ok { settings := [(o, String.ofList (c :: text))] }
    else if c = '-' then .error (.unusedValue o.label (String.ofList (c :: text)))
    else
      match g.named? (String.ofList ['-', c]) with
      | none => .ok { settings := [(o, "")], extra := some (String.ofList ('-' :: c :: text)) }
      | some next =>
        match text with
        | '=' :: value => (takenAssigned next value).map (Taken.after (o, ""))
        | text => (takenAttached g next text).map (Taken.after (o, ""))

/-- What an option as it is named comes to. -/
def Use.taken (g : Grammar) (u : Use) : Except Misuse Taken :=
  match u.given with
  | .nothing => .ok (takenAlone u.option)
  | .attached text => takenAttached g u.option text
  | .assigned text => takenAssigned u.option text

/-- What the next argument may be. -/
inductive Mode where
  | anything
  /-- The value of an option that was named with other settings before it. -/
  | value (before : List Setting) (o : Opt)
  /-- The operand, after two hyphens. -/
  | operand
  /-- Two hyphens, right after the operand. -/
  | separator
  deriving DecidableEq, Repr

/-- What has been scanned. -/
structure Scan where
  operand : Option String := none
  /-- What follows an operand that takes the rest. -/
  rest : List String := []
  settings : List Setting := []
  extras : List String := []
  mode : Mode := .anything
  deriving DecidableEq, Repr

namespace Scan

/-- The last value of the option with a name. -/
def value? (s : Scan) (name : String) : Option String :=
  (s.settings.reverse.find? fun p => p.1.names.contains name).map Prod.snd

/-- The option with a name was given. -/
def has (s : Scan) (name : String) : Bool := (s.value? name).isSome

/-- A setting made. -/
def set (g : Grammar) (s : Scan) (p : Setting) : Except Stop Scan :=
  match p.1.effect with
  | .help => .error (.help g.program)
  | .version => .error .version
  | .mark => .ok { s with settings := s.settings ++ [p] }
  | .value choices =>
    if allows choices p.2 then .ok { s with settings := s.settings ++ [p] }
    else .error (.misused g.program (.notAllowed p.1.label p.2 choices))

/-- The operand found. -/
def fill (g : Grammar) (s : Scan) (operand : String) (rest : List String) : Except Stop Scan :=
  if allows g.choices operand then .ok { s with operand := some operand, rest := rest, mode := .separator }
  else .error (.misused g.program (.notAllowed g.operand operand g.choices))

/-- An argument left over. -/
def leave (s : Scan) (text : String) : Scan := { s with extras := s.extras ++ [text], mode := .anything }

/-- An argument with options taken. -/
def take (g : Grammar) (s : Scan) (t : Taken) : Except Stop Scan :=
  let s := { s with extras := s.extras ++ t.extra.toList }
  match t.waiting with
  | some o => .ok { s with mode := .value t.settings o }
  | none => t.settings.foldlM (set g) { s with mode := .anything }

/-- Two hyphens taken. -/
def takeSeparator (s : Scan) : Scan :=
  if s.operand.isNone then { s with mode := .operand }
  else if s.mode = .separator then { s with mode := .anything }
  else s.leave "--"

/-- A plain argument taken that is no option's value. -/
def takePlain (g : Grammar) (s : Scan) (text : String) : Except Stop Scan :=
  if s.operand.isSome then .ok (s.leave text)
  else if s.mode = .operand && g.takesRest then s.fill g "--" [text]
  else s.fill g text []

/-- The next argument taken. -/
def step (g : Grammar) (s : Scan) (i : Item) : Except Stop Scan :=
  if g.takesRest && s.operand.isSome then .ok { s with rest := s.rest ++ [i.text] }
  else
    match s.mode, i with
    | .value before o, .plain text =>
      (before ++ [(o, text)]).foldlM (set g) { s with mode := .anything }
    | .value _ o, _ => .error (.misused g.program (.noValue o.label))
    | _, .plain text => s.takePlain g text
    | _, .separator => .ok s.takeSeparator
    | _, .unknown text => .ok (s.leave text)
    | _, .use _ u =>
      match u.taken g with
      | .error m => .error (.misused g.program m)
      | .ok t => s.take g t

/-- The arguments that must be there and are not. -/
def missing (g : Grammar) (s : Scan) : List String :=
  (if s.operand.isNone then [g.operand] else []) ++
    ((g.options.filter fun o => o.isRequired && !s.settings.any fun p => p.1 == o).map Opt.label)

/-- All arguments have been taken. -/
def finish (g : Grammar) (s : Scan) : Except Stop Scan :=
  match s.mode with
  | .value _ o => .error (.misused g.program (.noValue o.label))
  | .operand => close (s.leave "--")
  | _ => close s
where
  /-- Nothing that must be there is missing. -/
  close (s : Scan) : Except Stop Scan :=
    match s.missing g with
    | [] => .ok s
    | names => .error (.misused g.program (.missing names))

end Scan

/-- Scans arguments. -/
def Grammar.scan (g : Grammar) (args : List String) : Except Stop Scan :=
  match g.items args with
  | .error m => .error (.misused g.program m)
  | .ok items => (items.foldlM (Scan.step g) {}).bind (Scan.finish g)

end Erd.CommandLine
