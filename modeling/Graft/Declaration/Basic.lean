import Graft.Declaration.Annotations

/-!
# Declaration trees

What a source artifact declares: namespaces, the types in them, and the members of the types. A
member is either plain, with the content of its kind, or a nested type, with members of its own.
Line annotations tell where a declaration stands in the source. They are 64-bit words, counted from
1; a tree from the generator has none.
-/

namespace Graft

/-! ### Parts of a member -/

/-- Fold regions of the source whose markers stand between this member and the next one. -/
structure FoldMarks where
  /-- The name of a region that opens after the member. -/
  opened : Option String := none
  /-- Whether a region closes after the member. -/
  closed : Bool := false
deriving DecidableEq, Repr, Inhabited

namespace FoldMarks

/-- Whether no region opens or closes. -/
def isEmpty (f : FoldMarks) : Bool :=
  f.opened.isNone && !f.closed

/-- A region opens. -/
def opening (f : FoldMarks) (name : String) : FoldMarks :=
  { f with opened := some name }

/-- A region closes. -/
def closing (f : FoldMarks) : FoldMarks :=
  { f with closed := true }

theorem isEmpty_iff {f : FoldMarks} : f.isEmpty = true ↔ f = {} := by
  rcases f with ⟨_ | _, _ | _⟩ <;> simp [isEmpty]

end FoldMarks

/-- The bodies of a property's accessors; an accessor that is not there has none. -/
structure Accessors where
  get : Option String := none
  set : Option String := none
deriving DecidableEq, Repr, Inhabited

/-- What a member that is not a type consists of, by its kind. -/
inductive Content where
  | field (typeName : String) (comments : List String)
  | method (returnType : String) (signature : List String) (body : String)
  | constructor (signature : List String) (body : String)
  | property (typeName : String) (accessors : Accessors)
deriving DecidableEq, Repr, Inhabited

/-- The kinds of members. -/
inductive MemberKind where
  | field
  | method
  | constructor
  | property
  | nestedType
deriving DecidableEq, Repr, Inhabited

/-- The name of a kind in messages. -/
def MemberKind.text : MemberKind → String
  | .field => "field"
  | .method => "method"
  | .constructor => "constructor"
  | .property => "property"
  | .nestedType => "nested type"

/-- What every member has. -/
structure MemberHead where
  name : String
  annotations : Annotations := {}
  /-- The line where the member's text starts. -/
  firstLine : Option UInt64 := none
  isAbstract : Bool := false
  fold : FoldMarks := {}
deriving DecidableEq, Repr, Inhabited

/-- What stands in the declaration of a type outside its member list. -/
structure TypeHeader where
  name : String
  bases : List String := []
  modifiers : List String := []
  /-- The line where the type's text starts. -/
  firstLine : Option UInt64 := none
  /-- The line of the type's closing brace. -/
  closingLine : Option UInt64 := none
deriving DecidableEq, Repr, Inhabited

/-! ### Members, types, namespaces -/

/-- A member of a type. -/
inductive Member where
  | plain (head : MemberHead) (content : Content)
  | nested (head : MemberHead) (header : TypeHeader) (members : List Member)
deriving Repr

instance : Inhabited Member := ⟨.plain default default⟩

/-- A type of a namespace. -/
structure TypeDecl where
  header : TypeHeader
  members : List Member := []
deriving Repr, Inhabited

/-- A namespace with its imports and types. The global namespace has the empty name. -/
structure Namespace where
  name : String := ""
  imports : List String := []
  types : List TypeDecl := []
  /-- The line where the namespace starts. -/
  firstLine : Option UInt64 := none
  /-- The line of the namespace's closing brace. -/
  closingLine : Option UInt64 := none
deriving Repr, Inhabited

/-- Everything one artifact declares. -/
structure DeclarationTree where
  namespaces : List Namespace := []
deriving Repr, Inhabited

/-! ### Equality -/

mutual

/-- Equality of members is decidable. -/
def Member.decEq : (a b : Member) → Decidable (a = b)
  | .plain h c, .plain k d =>
    if e : h = k ∧ c = d then isTrue (by rw [e.1, e.2]) else isFalse (by simpa using e)
  | .plain .., .nested .. => isFalse (by simp)
  | .nested .., .plain .. => isFalse (by simp)
  | .nested h t ms, .nested k u ns =>
    if e : h = k ∧ t = u then
      match Member.decEqAll ms ns with
      | isTrue f => isTrue (by rw [e.1, e.2, f])
      | isFalse f => isFalse (by simp [f])
    else
      isFalse (by simp; intro h₁ h₂; exact absurd ⟨h₁, h₂⟩ e)

/-- Equality of member lists is decidable. -/
def Member.decEqAll : (as bs : List Member) → Decidable (as = bs)
  | [], [] => isTrue rfl
  | [], _ :: _ => isFalse (by simp)
  | _ :: _, [] => isFalse (by simp)
  | a :: as, b :: bs =>
    match Member.decEq a b, Member.decEqAll as bs with
    | isTrue h, isTrue k => isTrue (by rw [h, k])
    | isFalse h, _ => isFalse (by simp [h])
    | _, isFalse k => isFalse (by simp [k])

end

instance : DecidableEq Member := Member.decEq

deriving instance DecidableEq for TypeDecl
deriving instance DecidableEq for Namespace
deriving instance DecidableEq for DeclarationTree

/-! ### Views of a member -/

namespace Member

/-- What the member has in common with all others. -/
def head : Member → MemberHead
  | .plain h _ => h
  | .nested h _ _ => h

/-- The same member with another head. -/
def withHead (head : MemberHead) : Member → Member
  | .plain _ c => .plain head c
  | .nested _ t ms => .nested head t ms

@[simp]
theorem head_plain (h : MemberHead) (c : Content) : (plain h c).head = h := rfl

@[simp]
theorem head_nested (h : MemberHead) (t : TypeHeader) (ms : List Member) :
    (nested h t ms).head = h := rfl

@[simp]
theorem head_withHead (h : MemberHead) (m : Member) : (m.withHead h).head = h := by
  cases m <;> rfl

/-- The member's name. -/
def name (m : Member) : String :=
  m.head.name

/-- Whether the member carries the generation marker. -/
def isGenerated (m : Member) : Bool :=
  m.head.annotations.isGenerated

/-- The number of the line where the member's text starts. -/
def firstLine? (m : Member) : Option Nat :=
  m.head.firstLine.map UInt64.toNat

/-- The member's kind. -/
def kind : Member → MemberKind
  | .plain _ (.field ..) => .field
  | .plain _ (.method ..) => .method
  | .plain _ (.constructor ..) => .constructor
  | .plain _ (.property ..) => .property
  | .nested .. => .nestedType

/-- The parameter types of a callable; no other member has any. -/
def signature : Member → List String
  | .plain _ (.method _ s _) => s
  | .plain _ (.constructor s _) => s
  | _ => []

/-- The body of a callable. -/
def body? : Member → Option String
  | .plain _ (.method _ _ b) => some b
  | .plain _ (.constructor _ b) => some b
  | _ => none

/-- The accessors of a property. -/
def accessors? : Member → Option Accessors
  | .plain _ (.property _ a) => some a
  | _ => none

/-- The comment lines of a field. -/
def comments? : Member → Option (List String)
  | .plain _ (.field _ d) => some d
  | _ => none

/-- The type a member declares. -/
def innerType? : Member → Option TypeDecl
  | .plain .. => none
  | .nested _ t ms => some ⟨t, ms⟩

/-- The name in messages: a callable shows its parameter types. -/
def label (m : Member) : String :=
  match m with
  | .plain _ (.method _ s _) | .plain _ (.constructor s _) =>
    m.name ++ "(" ++ ", ".intercalate s ++ ")"
  | _ => m.name

/-! ### Making members -/

/-- A field without comments. -/
def ofField (name typeName : String) : Member :=
  .plain { name } (.field typeName [])

/-- A method without a result and without a body. -/
def ofMethod (name : String) (signature : List String) : Member :=
  .plain { name } (.method "void" signature "")

/-- A constructor without a body. -/
def ofConstructor (name : String) (signature : List String) : Member :=
  .plain { name } (.constructor signature "")

/-- A property without accessors. -/
def ofProperty (name typeName : String) : Member :=
  .plain { name } (.property typeName {})

/-- The member that declares a nested type; it takes the type's name. -/
def ofType (decl : TypeDecl) : Member :=
  .nested { name := decl.header.name } decl.header decl.members

/-- Add an annotation. -/
def annotate (m : Member) (marker : Marker) : Member :=
  m.withHead { m.head with annotations := m.head.annotations.insert marker }

/-- Set the line where the member starts. -/
def startingAt (m : Member) (line : UInt64) : Member :=
  m.withHead { m.head with firstLine := some line }

end Member

/-! ### Looking up declarations -/

/-- Whether a namespace has braces of its own: the global one does not. -/
def Namespace.isBraced (ns : Namespace) : Bool :=
  ns.name ≠ ""

/-- The first type of that name. -/
def Namespace.type? (ns : Namespace) (name : String) : Option TypeDecl :=
  ns.types.find? (·.header.name = name)

/-- The first namespace of that name. -/
def DeclarationTree.namespace? (tree : DeclarationTree) (name : String) : Option Namespace :=
  tree.namespaces.find? (·.name = name)

end Graft
