import Graft.Declaration.Basic
import Graft.Diagnostic
import Graft.Json.Reader
import Graft.ParsedSource.Basic

/-!
# Trees from JSON

The inverse of the encoding, and more liberal than it. A record is an object, of which unknown
members are ignored and no known one may occur twice, or an array with the parts of the record in
their order. Most parts have a default and may be missing; in an array, from the end.

A text may not nest too deeply: at most `maxLevels` of the arrays and objects that are decoded may
be open at once, and each decoder is told how many more it may open. Outside the body of a member,
ignored values are not looked at and nest as they like. The body of a member is held as data before
its kind is known, so everything inside it has to fit.
-/

namespace Graft.Interchange

open Json (Spelled)

/-- How many arrays and objects may be open at once. -/
def maxLevels : Nat := 127

/-- Whether a value is decoded as it is read, or after it was held as data. -/
inductive Source where
  | read
  | held
deriving DecidableEq, Repr

/-! ### Plain values -/

/-- A text. -/
def text? : Json → Option String
  | .string s => s
  | _ => none

/-- A truth value. -/
def flag? : Json → Option Bool
  | .bool b => some b
  | _ => none

/-- A line number. -/
def line? : Json → Option UInt64
  | .number n => n.toWord?
  | _ => none

/-- A value, or `null` for none. -/
def nullable? {α : Type} (decode : Json → Option α) : Json → Option (Option α)
  | .null => some none
  | v => (decode v).map some

/-- An array, each item decoded with one level less. -/
def items? {α : Type} (decode : Nat → Json → Option α) : Nat → Json → Option (List α)
  | levels + 1, .array items => items.mapM (decode levels)
  | _, _ => none

/-- A list of texts. -/
def texts? : Nat → Json → Option (List String) :=
  items? fun _ => text?

/-! ### Records -/

/-- The value of a member that may occur at most once. -/
def member? (members : List (Spelled × Json)) (name : String) : Option (Option Json) :=
  match members.filter (·.1 = some name) with
  | [] => some none
  | [(_, v)] => some (some v)
  | _ => none

/-- The parts of a record in the order of their names, `none` for each one that is missing. -/
def parts? (names : List String) : Json → Option (List (Option Json))
  | .object members =>
    if members.all (·.1.isSome) then names.mapM (member? members) else none
  | .array items =>
    if items.length ≤ names.length then
      some (items.map some ++ List.replicate (names.length - items.length) none)
    else
      none
  | _ => none

/-- A part that may not be missing. -/
def required {α : Type} (decode : Json → Option α) (part : Option Json) : Option α :=
  part.bind decode

/-- A part with a default. -/
def optional {α : Type} (default : α) (decode : Json → Option α) : Option Json → Option α
  | none => some default
  | some v => decode v

/-- A choice between words, some of which take a value: the word alone, or an object with the word
as its only member. -/
def choice? {α : Type} (alone : String → Option α) (taking : String → Json → Option α) :
    Nat → Json → Option α
  | _, .string (some word) => alone word
  | _ + 1, .object [(some word, v)] => taking word v
  | _, _ => none

/-- The value of a word that takes none. -/
def isNothing (source : Source) : Json → Bool
  | .null => true
  | .object [] => source = .held
  | _ => false

/-! ### Parts of a member -/

/-- A marker. -/
def marker? (source : Source) : Nat → Json → Option Marker :=
  choice? (fun word => if word = "generate" then some .generate else none) fun word v =>
    if word = "generate" then if isNothing source v then some .generate else none
    else if word = "attribute" then (text? v).map .attribute
    else none

/-- A set of annotations, in any order and with any repetitions. -/
def annotations? (source : Source) (levels : Nat) (v : Json) : Option Annotations :=
  (items? (marker? source) levels v).map Annotations.ofList

/-- Fold marks. -/
def fold? : Nat → Json → Option FoldMarks
  | 0, _ => none
  | _ + 1, v => do
    match ← parts? ["opened", "closed"] v with
    | [opened, closed] =>
      pure {
        opened := ← optional none (nullable? text?) opened
        closed := ← optional false flag? closed }
    | _ => none

/-- Accessors. -/
def accessors? : Nat → Json → Option Accessors
  | 0, _ => none
  | _ + 1, v => do
    match ← parts? ["get", "set"] v with
    | [get, set] =>
      pure {
        get := ← optional none (nullable? text?) get
        set := ← optional none (nullable? text?) set }
    | _ => none

/-- The kinds in the order of their numbers. -/
def kindNames : List (String × MemberKind) :=
  [("field", .field), ("method", .method), ("constructor", .constructor),
    ("property", .property), ("nested_type", .nestedType)]

/-- The kind of a member by its name; in a held body, also by its number. -/
def kind? (source : Source) : Json → Option MemberKind
  | .string (some word) => kindNames.lookup word
  | .number n =>
    if source = .held then n.toWord?.bind fun i => (kindNames[i.toNat]?).map (·.2) else none
  | _ => none

/-- The kind of a body and the rest of the body: an object without the kind, or an array without its
first item. -/
def tagged? (source : Source) : Json → Option (MemberKind × Json)
  | .object members => do
    let kind ← (← member? members "kind").bind (kind? source)
    pure (kind, .object (members.filter (·.1 ≠ some "kind")))
  | .array (first :: rest) => do
    let kind ← kind? source first
    pure (kind, .array rest)
  | _ => none

/-- The content of a member that is not a type, inside its body. -/
def content? (levels : Nat) (kind : MemberKind) (v : Json) : Option Content :=
  match kind with
  | .field => do
    match ← parts? ["type_name", "doc_comment"] v with
    | [typeName, comments] =>
      pure (.field (← optional "" text? typeName) (← optional [] (texts? levels) comments))
    | _ => none
  | .method => do
    match ← parts? ["return_type", "signature", "body"] v with
    | [returnType, signature, body] =>
      pure (.method (← optional "" text? returnType) (← optional [] (texts? levels) signature)
        (← optional "" text? body))
    | _ => none
  | .constructor => do
    match ← parts? ["signature", "body"] v with
    | [signature, body] =>
      pure (.constructor (← optional [] (texts? levels) signature) (← optional "" text? body))
    | _ => none
  | .property => do
    match ← parts? ["type_name", "accessors"] v with
    | [typeName, accessors] =>
      pure (.property (← optional "" text? typeName) (← optional {} (accessors? levels) accessors))
    | _ => none
  | .nestedType => none

/-- The parts of a type, given the decoder for its member list. -/
def typeParts? (levels : Nat) (members? : Json → Option (List Member)) (v : Json) :
    Option TypeDecl := do
  match ← parts? ["name", "bases", "modifiers", "members", "first_line", "closing_line"] v with
  | [name, bases, modifiers, members, firstLine, closingLine] =>
    let header : TypeHeader := {
      name := ← required text? name
      bases := ← optional [] (texts? levels) bases
      modifiers := ← optional [] (texts? levels) modifiers
      firstLine := ← optional none (nullable? line?) firstLine
      closingLine := ← optional none (nullable? line?) closingLine }
    pure { header, members := ← optional [] members? members }
  | _ => none

/-! ### Members, types, namespaces -/

mutual

/-- A member. -/
def member (source : Source) : Nat → Json → Option Member
  | 0, _ => none
  | levels + 1, v => do
    match ← parts? ["name", "annotations", "first_line", "is_abstract", "fold", "body"] v with
    | [name, annotations, firstLine, isAbstract, fold, body] =>
      let head : MemberHead := {
        name := ← required text? name
        annotations := ← optional {} (annotations? source levels) annotations
        firstLine := ← optional none (nullable? line?) firstLine
        isAbstract := ← optional false flag? isAbstract
        fold := ← optional {} (fold? levels) fold }
      required (body? source head levels) body
    | _ => none

/-- The body of a member, which completes the member. -/
def body? (source : Source) (head : MemberHead) : Nat → Json → Option Member
  | 0, _ => none
  | levels + 1, v => do
    if source = .read ∧ v.isHoldable (levels + 1) = false then
      none
    else
      let (kind, rest) ← tagged? source v
      if kind = .nestedType then
        let decl ← typeParts? levels (members? .held levels) rest
        pure (.nested head decl.header decl.members)
      else
        (content? levels kind rest).map (.plain head)

/-- A member list. -/
def members? (source : Source) : Nat → Json → Option (List Member)
  | 0, _ => none
  | levels + 1, .array items => items.mapM (member source levels)
  | _ + 1, _ => none

end

/-- A type. -/
def type? : Nat → Json → Option TypeDecl
  | 0, _ => none
  | levels + 1, v => typeParts? levels (members? .read levels) v

/-- A namespace. -/
def namespace? : Nat → Json → Option Namespace
  | 0, _ => none
  | levels + 1, v => do
    match ← parts? ["name", "imports", "types", "first_line", "closing_line"] v with
    | [name, imports, types, firstLine, closingLine] =>
      pure {
        name := ← optional "" text? name
        imports := ← optional [] (texts? levels) imports
        types := ← optional [] (items? type? levels) types
        firstLine := ← optional none (nullable? line?) firstLine
        closingLine := ← optional none (nullable? line?) closingLine }
    | _ => none

/-- A declaration tree. -/
def tree? : Nat → Json → Option DeclarationTree
  | 0, _ => none
  | levels + 1, v => do
    match ← parts? ["namespaces"] v with
    | [namespaces] => pure { namespaces := ← optional [] (items? namespace? levels) namespaces }
    | _ => none

/-! ### Diagnostics and parsed sources -/

/-- A severity by its name. -/
def severityOf? (word : String) : Option Severity :=
  [("note", Severity.note), ("warning", .warning), ("error", .error)].lookup word

/-- A severity. -/
def severity? : Nat → Json → Option Severity :=
  choice? severityOf? fun word v => if isNothing .read v then severityOf? word else none

/-- A diagnostic. -/
def diagnostic? : Nat → Json → Option Diagnostic
  | 0, _ => none
  | levels + 1, v => do
    match ← parts? ["severity", "line", "message"] v with
    | [severity, line, message] =>
      pure {
        severity := ← required (severity? levels) severity
        line := ← optional none (nullable? line?) line
        message := ← required text? message }
    | _ => none

/-- A parsed source. -/
def parsedSource? : Nat → Json → Option ParsedSource
  | 0, _ => none
  | levels + 1, v => do
    match ← parts? ["diagnostics", "tree"] v with
    | [diagnostics, tree] =>
      pure {
        diagnostics := ← optional [] (items? diagnostic? levels) diagnostics
        tree := ← required (tree? levels) tree }
    | _ => none

/-! ### Whole texts -/

/-- What a JSON text denotes, decoded with all levels at hand. -/
def ofText? {α : Type} (decode : Nat → Json → Option α) (text : String) : Option α :=
  (Json.parse? text).bind (decode maxLevels)

end Graft.Interchange
