import SourceBundle.Text.Basic

/-!
# Arguments

The arguments of a command are options and positional arguments in any order.  An option with a
long name may have a short one; its value stands in the next argument, behind an equals sign, or
right behind the short name.  A lone `--` ends the options.

Only options that may be repeated are given more than once.
-/

namespace SourceBundle.CommandLine

/-- What goes with an option. -/
inductive OptionKind where
  | flag
  | value
  | values
  deriving DecidableEq, Repr

/-- An option that a command knows. -/
structure OptionSpec where
  name : String
  short : Option Char
  kind : OptionKind
  deriving DecidableEq, Repr

/-- The arguments of a command as they were given: options with their values, flags with none. -/
structure Given where
  options : List (String × Option Text)
  positional : List Text
  deriving DecidableEq, Repr

namespace Given

/-- Nothing was given. -/
def nothing : Given := ⟨[], []⟩

/-- The flag was given. -/
def hasFlag (g : Given) (name : String) : Bool := g.options.any fun o => o.1 == name

/-- The values of an option in the order in which they were given. -/
def valuesOf (g : Given) (name : String) : List Text :=
  g.options.filterMap fun o => if o.1 == name then o.2 else none

/-- The value of an option. -/
def valueOf? (g : Given) (name : String) : Option Text := (g.valuesOf name).head?

/-- The values of an option, each cut at its commas. -/
def listOf (g : Given) (name : String) : List Text :=
  (g.valuesOf name).flatMap (Text.pieces ',')

/-- Adds an option, unless it was given before and may not be repeated. -/
def add? (g : Given) (spec : OptionSpec) (value : Option Text) : Option Given :=
  if spec.kind != .values && g.hasFlag spec.name then none
  else some { g with options := g.options ++ [(spec.name, value)] }

end Given

/-- The argument may stand for the value of the option before it: it does not look like an
option. -/
def isValue (argument : Text) : Bool := argument.head? != some '-' || argument == ['-']

/-- What reading one argument comes to: it is complete, or it wants the next one as the value of an
option. -/
inductive Reading where
  | complete (g : Given)
  | wantsValue (g : Given) (spec : OptionSpec)

/-- Reads an option with a long name, given without its dashes. -/
def readLong? (specs : List OptionSpec) (g : Given) (t : Text) : Option Reading :=
  let name := t.takeWhile (· != '=')
  let value := (t.dropWhile (· != '=')).tail?
  (specs.find? fun spec => spec.name.toList == name).bind fun spec =>
    match spec.kind, value with
    | .flag, some _ => none
    | .flag, none => (g.add? spec none).map .complete
    | _, some value => (g.add? spec (some value)).map .complete
    | _, none => some (.wantsValue g spec)

/-- Reads options with short names, given one after the other without their dash. -/
def readShort? (specs : List OptionSpec) (g : Given) : Text → Option Reading
  | [] => some (.complete g)
  | c :: t =>
    (specs.find? fun spec => spec.short == some c).bind fun spec =>
      match spec.kind with
      | .flag => (g.add? spec none).bind fun g => readShort? specs g t
      | _ =>
        match t with
        | [] => some (.wantsValue g spec)
        | '=' :: value => (g.add? spec (some value)).map .complete
        | value => (g.add? spec (some value)).map .complete

/-- Reads one argument. -/
def readOne? (specs : List OptionSpec) (g : Given) (argument : Text) : Option Reading :=
  match argument with
  | '-' :: '-' :: t => readLong? specs g t
  | '-' :: c :: t => readShort? specs g (c :: t)
  | t => some (.complete { g with positional := g.positional ++ [t] })

/-- Reads the arguments of a command that knows the given options.  `pending` is an option that
wants the next argument as its value. -/
def readArguments? (specs : List OptionSpec) (g : Given) (pending : Option OptionSpec) :
    List Text → Option Given
  | [] => if pending.isSome then none else some g
  | argument :: rest =>
    match pending with
    | some spec =>
      if isValue argument then
        (g.add? spec (some argument)).bind fun g => readArguments? specs g none rest
      else none
    | none =>
      if argument = ['-', '-'] then some { g with positional := g.positional ++ rest }
      else
        match readOne? specs g argument with
        | none => none
        | some (.complete g) => readArguments? specs g none rest
        | some (.wantsValue g spec) => readArguments? specs g (some spec) rest

end SourceBundle.CommandLine
