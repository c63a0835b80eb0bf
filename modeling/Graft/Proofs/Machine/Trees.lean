import Graft.Proofs.Machine.Members
import Graft.Proofs.Recovery.Tiling

/-!
# Recovering a tree on a machine

Beyond the members, a recovery adds three things up: the line behind the document, the scopes that
are open at the end of a type, and the number of types around a member. `recoverTree_no_trap` says
that these sums fit into words, and so that a recovery on a machine ends with a tree or with a
failure, for every tree whose types are not nested nearly as deep as a word can count. Nothing is
asked of the lines that the tree is annotated with: they may be zero, decrease, or lie behind the
document.
-/

namespace Graft

/-! ### Nesting -/

mutual

/-- How many types there are inside each other in a member, itself counted. -/
def Member.nesting : Member → Nat
  | .plain .. => 0
  | .nested _ _ ms => Member.nestings ms + 1

/-- The deepest nesting in a member list. -/
def Member.nestings : List Member → Nat
  | [] => 0
  | m :: ms => max m.nesting (Member.nestings ms)

end

/-- How many nested types there are inside each other in a tree. -/
def DeclarationTree.nesting (tree : DeclarationTree) : Nat :=
  Member.nestings (tree.namespaces.flatMap fun ns => ns.types.flatMap TypeDecl.members)

/-- A list is nested as deep as its deepest member. -/
lemma Member.nestings_lt_iff {ms : List Member} {n : Nat} :
    nestings ms < n ↔ 0 < n ∧ ∀ m ∈ ms, m.nesting < n := by
  induction ms with
  | nil => simp [nestings]
  | cons m ms ih => rw [nestings, List.forall_mem_cons, max_lt_iff, ih, and_left_comm]

lemma DeclarationTree.nestings_lt {tree : DeclarationTree} {n : Nat} (h : tree.nesting < n)
    {ns : Namespace} (hns : ns ∈ tree.namespaces) {t : TypeDecl} (ht : t ∈ ns.types) :
    Member.nestings t.members < n := by
  obtain ⟨hpos, hmem⟩ := Member.nestings_lt_iff.mp h
  refine Member.nestings_lt_iff.mpr ⟨hpos, fun m hm => hmem m ?_⟩
  exact List.mem_flatMap.mpr ⟨ns, hns, List.mem_flatMap.mpr ⟨t, ht, hm⟩⟩

namespace Machine

open Recovery

variable {ε : Type}

/-- A recovery on a machine, which shows which members it went through. -/
abbrev Recovering (α : Type) := Traced Step (Halt Failure) α

/-! ### The recovery -/

/-- How the type ends that is declared over an extent. -/
def innerEnd (extent : Extent) (closingLine : Option Nat) : Except (Halt ε) TypeEnd :=
  match closingLine with
  | some line => .ok (.onLine line)
  | none => do
    let scopes ← sum extent.scopes 1
    pure (.before extent.stop scopes)

mutual

/-- Recover the text of one member from its extent. -/
def recoverMember (d : Document) (depth : Nat) (extent : Extent) : Member → Recovering Member
  | .plain head content => do
    Traced.record ⟨head.name, (Member.plain head content).kind, extent.start, extent.stop, depth⟩
    let (head, content) ← Traced.ofExcept (recoverContent d extent head content)
    pure (.plain head content)
  | .nested head header members => do
    Traced.record ⟨head.name, .nestedType, extent.start, extent.stop, depth⟩
    let bound ← Traced.ofExcept (innerEnd extent (header.closingLine.map UInt64.toNat))
    let inside ← Traced.ofExcept (sum depth 1)
    match missingLine? members with
    | some m => Traced.fail (.failure (.parsedTree (.missingLine m.name header.name)))
    | none =>
      let members ← recoverLocated d inside (extentsOf bound members) members
      pure (.nested head header members)

/-- Recover the text of the members that have a line, each from the next of the extents. -/
def recoverLocated (d : Document) (depth : Nat) (extents : List Extent) :
    List Member → Recovering (List Member)
  | [] => pure []
  | m :: ms =>
    match m.firstLine?, extents with
    | some _, extent :: extents => do
      let m ← recoverMember d depth extent m
      let ms ← recoverLocated d depth extents ms
      pure (m :: ms)
    | _, _ => do
      let ms ← recoverLocated d depth extents ms
      pure (m :: ms)

end

/-- Recover the members of a type that ends as given. -/
def recoverMembers (d : Document) (depth : Nat) (bound : TypeEnd) (type : String)
    (members : List Member) : Recovering (List Member) :=
  match missingLine? members with
  | some m => Traced.fail (.failure (.parsedTree (.missingLine m.name type)))
  | none => recoverLocated d depth (extentsOf bound members) members

/-- How a type ends. -/
def typeEnd (type : TypeDecl) (next : Option TypeDecl) (namespaceStop namespaceScopes : Nat) :
    Except (Halt ε) TypeEnd :=
  match type.header.closingLine, next.bind (·.header.firstLine) with
  | some line, _ => .ok (.onLine line.toNat)
  | none, some line => .ok (.before line.toNat 1)
  | none, none => do
    let scopes ← sum 1 namespaceScopes
    pure (.before namespaceStop scopes)

/-- Recover the types of a namespace. -/
def recoverTypes (d : Document) (stop scopes : Nat) : List TypeDecl → Recovering (List TypeDecl)
  | [] => pure []
  | t :: ts => do
    let bound ← Traced.ofExcept (typeEnd t ts.head? stop scopes)
    let members ← recoverMembers d 0 bound t.header.name t.members
    let ts ← recoverTypes d stop scopes ts
    pure ({ t with members } :: ts)

/-- Where the last type of a namespace ends, in a document that ends before line `behind`, and how
many scopes besides the type's own close before. -/
def namespaceEnd (behind : Nat) (ns : Namespace) (next : Option Namespace) : Nat × Nat :=
  match ns.closingLine with
  | some line => (line.toNat, 0)
  | none =>
    let stop := match next.bind (·.firstLine) with
      | some line => line.toNat
      | none => behind
    (stop, if ns.isBraced then 1 else 0)

/-- Recover the types of all namespaces. -/
def recoverNamespaces (d : Document) (behind : Nat) :
    List Namespace → Recovering (List Namespace)
  | [] => pure []
  | ns :: rest => do
    let (stop, scopes) := namespaceEnd behind ns rest.head?
    let types ← recoverTypes d stop scopes ns.types
    let rest ← recoverNamespaces d behind rest
    pure ({ ns with types } :: rest)

/-- Fill a parsed tree with the text of its document. -/
def recoverTree (d : Document) (tree : DeclarationTree) : Recovering DeclarationTree := do
  let behind ← Traced.ofExcept (sum d.size 1)
  let namespaces ← recoverNamespaces d behind tree.namespaces
  pure { namespaces }

/-! ### Sums that fit -/

/-- One more scope can be counted as long as that fits a word. -/
lemma innerEnd_eq {extent : Extent} (h : extent.scopes + 1 < UInt64.size)
    (closingLine : Option Nat) :
    (innerEnd extent closingLine : Except (Halt ε) TypeEnd) =
      .ok (extent.innerEnd closingLine) := by
  cases closingLine with
  | some line => rfl
  | none =>
    rw [innerEnd, sum_of_lt h]
    rfl

/-- A nested type adds at most one open scope. -/
lemma scopes_innerEnd_le (extent : Extent) (closingLine : Option Nat) :
    (extent.innerEnd closingLine).scopes ≤ extent.scopes + 1 := by
  cases closingLine with
  | some line => exact Nat.zero_le _
  | none => exact Nat.le_refl _

/-- No member of a type is followed by more closing braces than the type's end is. -/
lemma scopes_le_of_mem_extentsOf {bound : TypeEnd} {members : List Member} {x : Extent}
    (h : x ∈ extentsOf bound members) : x.scopes ≤ bound.scopes := by
  obtain ⟨i, hi⟩ := List.getElem?_of_mem h
  rw [(Extent.isLast_and_scopes_of_tiling hi).2]
  split
  · exact Nat.le_refl _
  · exact Nat.zero_le _

/-- Behind a type at most two scopes are open, its own included. -/
lemma typeEnd_eq {scopes : Nat} (h : scopes ≤ 1) (t : TypeDecl) (next : Option TypeDecl)
    (stop : Nat) :
    (typeEnd t next stop scopes : Except (Halt Failure) TypeEnd) =
        .ok (Recovery.typeEnd t next stop scopes) ∧
      (Recovery.typeEnd t next stop scopes).scopes ≤ 2 := by
  have hsum : 1 + scopes < UInt64.size := by
    rw [UInt64.size]
    omega
  rw [typeEnd, Recovery.typeEnd]
  cases t.header.closingLine with
  | some line => exact ⟨rfl, Nat.zero_le 2⟩
  | none =>
    cases next.bind (·.header.firstLine) with
    | some line => exact ⟨rfl, Nat.le_succ 1⟩
    | none =>
      rw [sum_of_lt hsum]
      exact ⟨rfl, Nat.add_le_add_left h 1⟩

/-! ### The recovery is the same -/

mutual

/-- At most two scopes more than types are open around a member: those of the outermost type and of
its namespace. -/
lemma recoverMember_eq (d : Document) {depth : Nat} {extent : Extent} {m : Member}
    (hdepth : depth + m.nesting < UInt64.size - 2) (hscopes : extent.scopes ≤ depth + 2) :
    recoverMember d depth extent m =
      (Recovery.recoverMember d depth extent m).mapError .failure := by
  match m with
  | .plain head content =>
    rw [recoverMember, Recovery.recoverMember, recoverContent_eq]
    simp only [Traced.mapError_bind, Traced.mapError_record, Traced.mapError_ofExcept]
    rfl
  | .nested head header members =>
    rw [Member.nesting] at hdepth
    have hinner : extent.scopes + 1 < UInt64.size := by omega
    have hinside : depth + 1 < UInt64.size := by omega
    rw [recoverMember, Recovery.recoverMember, innerEnd_eq hinner, sum_of_lt hinside,
      Traced.mapError_bind]
    simp only [Traced.ofExcept_ok, Traced.pure_andThen]
    cases missingLine? members with
    | some m => rfl
    | none =>
      have hend := scopes_innerEnd_le extent (header.closingLine.map UInt64.toNat)
      have hmembers : depth + 1 + Member.nestings members < UInt64.size - 2 := by omega
      have hextents :
          ∀ x ∈ extentsOf (extent.innerEnd (header.closingLine.map UInt64.toNat)) members,
            x.scopes ≤ depth + 1 + 2 := by
        intro x hx
        have hle := scopes_le_of_mem_extentsOf hx
        omega
      simp only [recoverLocated_eq d hmembers hextents, Traced.mapError_bind]
      rfl

/-- The count of open scopes grows with the depth only, so at the depths that a tree can have it
does not overflow. -/
lemma recoverLocated_eq (d : Document) {depth : Nat} {extents : List Extent} {ms : List Member}
    (hdepth : depth + Member.nestings ms < UInt64.size - 2)
    (hscopes : ∀ x ∈ extents, x.scopes ≤ depth + 2) :
    recoverLocated d depth extents ms =
      (Recovery.recoverLocated d depth extents ms).mapError .failure := by
  match ms with
  | [] => rfl
  | m :: ms =>
    rw [Member.nestings] at hdepth
    have hfirst : depth + m.nesting < UInt64.size - 2 := by omega
    have hothers : depth + Member.nestings ms < UInt64.size - 2 := by omega
    have hpassed : recoverLocated d depth extents ms =
        (Recovery.recoverLocated d depth extents ms).mapError .failure :=
      recoverLocated_eq d hothers hscopes
    cases hm : m.firstLine? with
    | none =>
      simp only [recoverLocated, Recovery.recoverLocated, hm, hpassed, Traced.mapError_bind]
      rfl
    | some line =>
      cases extents with
      | nil =>
        simp only [recoverLocated, Recovery.recoverLocated, hm, hpassed, Traced.mapError_bind]
        rfl
      | cons x extents =>
        rw [List.forall_mem_cons] at hscopes
        have hmember := recoverMember_eq d hfirst hscopes.1
        have hrest := recoverLocated_eq d hothers hscopes.2
        simp only [recoverLocated, Recovery.recoverLocated, hm, hmember, hrest,
          Traced.mapError_bind]
        rfl

end

lemma recoverMembers_eq (d : Document) {bound : TypeEnd} {members : List Member}
    (hdepth : Member.nestings members < UInt64.size - 2) (hscopes : bound.scopes ≤ 2)
    (type : String) :
    recoverMembers d 0 bound type members =
      (Recovery.recoverMembers d 0 bound type members).mapError .failure := by
  rw [recoverMembers, Recovery.recoverMembers]
  cases missingLine? members with
  | some m => rfl
  | none =>
    exact recoverLocated_eq d (by omega) fun x hx =>
      (scopes_le_of_mem_extentsOf hx).trans hscopes

lemma recoverTypes_eq (d : Document) (stop : Nat) {scopes : Nat} (hscopes : scopes ≤ 1)
    {ts : List TypeDecl} (hdepth : ∀ t ∈ ts, Member.nestings t.members < UInt64.size - 2) :
    recoverTypes d stop scopes ts =
      (Recovery.recoverTypes d stop scopes ts).mapError .failure := by
  induction ts with
  | nil => rfl
  | cons t ts ih =>
    rw [List.forall_mem_cons] at hdepth
    obtain ⟨hend, hle⟩ := typeEnd_eq hscopes t ts.head? stop
    rw [recoverTypes, Recovery.recoverTypes, hend, ih hdepth.2]
    simp only [Traced.mapError_bind, Traced.ofExcept_ok, Traced.pure_andThen,
      recoverMembers_eq d hdepth.1 hle]
    rfl

/-- A namespace leaves at most one scope open. -/
lemma scopes_namespaceEnd_le (d : Document) (ns : Namespace) (next : Option Namespace) :
    (Recovery.namespaceEnd d ns next).2 ≤ 1 := by
  rw [Recovery.namespaceEnd]
  split
  · exact Nat.zero_le 1
  · dsimp only
    split <;> decide

lemma recoverNamespaces_eq (d : Document) {nss : List Namespace}
    (hdepth : ∀ ns ∈ nss, ∀ t ∈ ns.types, Member.nestings t.members < UInt64.size - 2) :
    recoverNamespaces d (d.size + 1) nss =
      (Recovery.recoverNamespaces d nss).mapError .failure := by
  induction nss with
  | nil => rfl
  | cons ns rest ih =>
    rw [List.forall_mem_cons] at hdepth
    have hend : namespaceEnd (d.size + 1) ns rest.head? =
        Recovery.namespaceEnd d ns rest.head? := rfl
    rw [recoverNamespaces, Recovery.recoverNamespaces, ih hdepth.2, hend]
    simp only [Traced.mapError_bind,
      recoverTypes_eq d _ (scopes_namespaceEnd_le d ns rest.head?) hdepth.1]
    rfl

/-- A recovery on a machine runs into no trap: it leaves the same records and ends with the same
tree, or the same failure, as without a machine. The document must have a line count that fits into
a word with one more, and types must not be nested so deep that the scopes around the innermost
one, of which there are two more, cannot be counted. -/
theorem recoverTree_no_trap (d : Document) (tree : DeclarationTree) (hsize : d.size < 2 ^ 64 - 1)
    (hdepth : tree.nesting < 2 ^ 64 - 2) :
    recoverTree d tree = (Recovery.recoverTree d tree).mapError .failure ∧
      ∀ trap, (recoverTree d tree).outcome ≠ .error (.trap trap) := by
  have hsum : d.size + 1 < UInt64.size := by
    rw [UInt64.size]
    omega
  have heq : recoverTree d tree = (Recovery.recoverTree d tree).mapError .failure := by
    rw [recoverTree, Recovery.recoverTree, sum_of_lt hsum]
    simp only [Traced.mapError_bind, Traced.ofExcept_ok, Traced.pure_andThen]
    rw [recoverNamespaces_eq d fun ns hns t ht => DeclarationTree.nestings_lt hdepth hns ht]
    rfl
  refine ⟨heq, fun trap h => ?_⟩
  rw [heq, Traced.mapError] at h
  cases hout : (Recovery.recoverTree d tree).outcome with
  | ok recovered =>
    rw [hout] at h
    cases h
  | error failure =>
    rw [hout] at h
    cases h

/-- Lines that no text has: the type starts on line zero, its first member behind the document, the
type nested in it above, and that ends nowhere. -/
def strayTree : DeclarationTree where
  namespaces := [{
    name := "N", firstLine := some 7,
    types := [{
      header := { name := "A", firstLine := some 0 },
      members := [
        .plain { name := "x", firstLine := some 99 } (.field "int" []),
        .nested { name := "B", firstLine := some 2 } { name := "B" }
          [.plain { name := "y", firstLine := some 3 } (.field "int" []),
            .plain { name := "M", firstLine := some 0 } (.method "void" [] "")]] }] }]

/-- A recovery from two lines, of which the first one holds the only brace, behind a character of
two bytes. -/
theorem recoverTree_no_trap_strayTree :
    (Document.ofLines ["// é \x7b", "int y;"]).size < 2 ^ 64 - 1 ∧ strayTree.nesting < 2 ^ 64 - 2 ∧
      (recoverTree (Document.ofLines ["// é \x7b", "int y;"]) strayTree).outcome =
        .error (.failure (.body "M" 2 .noClosingBrace)) := by
  have hsize : (Document.ofLines ["// é \x7b", "int y;"]).size < 2 ^ 64 - 1 := by decide
  have hdepth : strayTree.nesting < 2 ^ 64 - 2 := by decide
  refine ⟨hsize, hdepth, ?_⟩
  rw [(recoverTree_no_trap _ _ hsize hdepth).1]
  decide

end Machine

end Graft
