import LineCalc.Command.Invocation
import LineCalc.Settings.Yaml

/-! A way to split arguments. The expression of a subcommand is the first word that is no known
    flag, even if it starts with a hyphen; behind two hyphens no word is a flag. -/
namespace LineCalc.Command

namespace Flag

def ofLong? (scope : Scope) (t : Text) : Option Flag :=
  all.find? fun f => f.isKnown scope && f.long = t

def ofShort? (scope : Scope) (c : Char) : Option Flag :=
  all.find? fun f => f.isKnown scope && f.short? = some c

end Flag

namespace Given

def countLimit : Nat := 255

def switch (g : Given) (scope : Scope) : Flag → Except Stop Given
  | .verbose => .ok { g with more? := some (min countLimit (g.more?.getD 0 + 1)) }
  | .quiet => if g.quiet then .error .usage else .ok { g with quiet := true }
  | .lenient => if g.lenient then .error .usage else .ok { g with lenient := true }
  | .rejectZero => if g.rejectZero then .error .usage else .ok { g with rejectZero := true }
  | .raw => if g.raw then .error .usage else .ok { g with raw := true }
  | .tokens => if g.tokens then .error .usage else .ok { g with tokens := true }
  | .help => .error .help
  | .version => .error (.version scope)
  | .color | .config | .historySize | .format => .error .usage

def size? (t : Text) : Option Nat :=
  let digits := match t with | '+' :: rest => rest | _ => t
  (Decimal.digits? digits).bind Settings.bounded?

def once (old? : Option α) (new? : Option α) (store : α → Given) : Except Stop Given :=
  match old?, new? with
  | none, some a => .ok (store a)
  | _, _ => .error .usage

def assign (g : Given) (value : Text) : Flag → Except Stop Given
  | .color => once g.color? (Color.ofName? value) fun c => { g with color? := some c }
  | .config =>
    once g.config? (if value.isEmpty then none else some value) fun path =>
      { g with config? := some path }
  | .historySize => once g.historySize? (size? value) fun n => { g with historySize? := some n }
  | .format => once g.format? (Format.ofName? value) fun f => { g with format? := some f }
  | _ => .error .usage

def place (g : Given) (scope : Scope) (word : Text) : Except Stop Given :=
  if scope.takesExpression ∧ g.expression? = none then .ok { g with expression? := some word }
  else .error .usage

def wantsExpression (g : Given) (scope : Scope) : Bool :=
  scope.takesExpression && g.expression?.isNone

end Given

/-- What a word is among flags. A flag with a value may hold it in the same word. -/
inductive Word
  | escape
  | long (f : Flag) (value? : Option Text)
  | shorts (letters : Text)
  | plain
  | strange
  deriving DecidableEq, Repr

def Word.ofText (scope : Scope) (wantsExpression : Bool) (t : Text) : Word :=
  match t with
  | ['-', '-'] => .escape
  | '-' :: '-' :: rest =>
    let value? := match rest.dropWhile (· ≠ '=') with
      | _ :: value => some value
      | [] => none
    match Flag.ofLong? scope (rest.takeWhile (· ≠ '=')) with
    | some f => .long f value?
    | none => if wantsExpression then .plain else .strange
  | '-' :: c :: rest =>
    if wantsExpression ∧ (c :: rest).any (fun c => (Flag.ofShort? scope c).isNone) then .plain
    else .shorts (c :: rest)
  | _ => .plain

/-- The words read so far, and the flag that still waits for its value. A value that stands in a
    word of its own is judged when the next word is read. -/
structure Reading where
  given : Given
  waiting? : Option Flag := none
  refused : Bool := false

namespace Reading

def isUnsettled (r : Reading) : Bool := r.waiting?.isSome || r.refused

def take (r : Reading) (f : Flag) (value : Text) : Reading :=
  match r.given.assign value f with
  | .ok g => { given := g }
  | .error _ => { given := r.given, refused := true }

/-- Letters behind one hyphen. The first one that takes a value takes the rest of the word, less
    an equals sign in front. -/
def letters (scope : Scope) (g : Given) : Text → Except Stop Reading
  | [] => .ok { given := g }
  | c :: rest =>
    match Flag.ofShort? scope c with
    | none => .error .usage
    | some f =>
      if f.takesValue then
        match rest with
        | [] => .ok { given := g, waiting? := some f }
        | '=' :: value => (g.assign value f).map fun g => { given := g }
        | value => (g.assign value f).map fun g => { given := g }
      else
        match g.switch scope f with
        | .ok g => letters scope g rest
        | .error stop => .error stop

def longFlag (scope : Scope) (g : Given) (f : Flag) : Option Text → Except Stop Reading
  | none =>
    if f.takesValue then .ok { given := g, waiting? := some f }
    else (g.switch scope f).map fun g => { given := g }
  | some value =>
    if f.takesValue then (g.assign value f).map fun g => { given := g } else .error .usage

end Reading

def placeAll (scope : Scope) (g : Given) : List Text → Except Stop Given
  | [] => .ok g
  | word :: words =>
    match g.place scope word with
    | .ok g => placeAll scope g words
    | .error stop => .error stop

def Reading.word (r : Reading) (scope : Scope) (t : Text) : Except Stop Reading :=
  if r.refused then .error .usage else
  match r.waiting?, Word.ofText scope (r.given.wantsExpression scope) t with
  | _, .strange | _, .escape => .error .usage
  | some f, .plain => .ok (r.take f t)
  | some _, .long _ _ | some _, .shorts _ => .error .usage
  | none, .plain => (r.given.place scope t).map fun g => { given := g }
  | none, .long f value? => Reading.longFlag scope r.given f value?
  | none, .shorts letters => Reading.letters scope r.given letters

def readScope (scope : Scope) (r : Reading) : List Text → Except Stop Given
  | [] => if r.isUnsettled then .error .usage else .ok r.given
  | word :: words =>
    if word = "--".toList then
      if r.isUnsettled then .error .usage else placeAll scope r.given words
    else
      match r.word scope word with
      | .ok r => readScope scope r words
      | .error stop => .error stop

def helpStop : List Text → Stop
  | [] => .help
  | [word] => if (Scope.ofName? word).isSome ∨ word = "help".toList then .help else .usage
  | _ => .usage

/-- The words up to the subcommand, which is the first word that no flag takes. The words behind
    it are read before a value just in front of it is judged. -/
def readRoot (r : Reading) : List Text → Except Stop (Given × Scope × Given)
  | [] => .error .usage
  | word :: words =>
    if r.waiting? = none ∧ word = "help".toList then .error (helpStop words)
    else
      match (if r.waiting? = none then Scope.ofName? word else none) with
      | some scope =>
        match readScope scope { given := {} } words with
        | .error stop => .error stop
        | .ok g => if r.refused then .error .usage else .ok (r.given, scope, g)
      | none =>
        match r.word .root word with
        | .ok r => readRoot r words
        | .error stop => .error stop

/-- The settings file that the environment names takes the place of a flag on each side that has
    none, so an empty name is no more a file there than behind the flag. -/
def environmentHolds (before after : Given) (environment? : Option Text) : Bool :=
  environment? ≠ some [] || before.config?.isSome && after.config?.isSome

def parse (environment? : Option Text) (args : List Text) : Except Stop Invocation :=
  match readRoot { given := {} } args with
  | .error stop => .error stop
  | .ok (before, scope, after) =>
    if environmentHolds before after environment? then
      before.invocation after scope environment?
    else .error .usage

end LineCalc.Command
