import Graft.Proofs.Interchange.Records

/-!
# How deep encodings nest

An encoding opens three more arrays and objects for every nested type on the way to a member: the
member list, the member and its body. Decoding needs as many levels, so it limits how many types are
nested in one another.
-/

namespace Graft

open Json (PlainWithin)

/-! ### Encodings as records -/

/-- The part for a list of texts, which is left out if it is empty. -/
def textsPart (ss : List String) : Option Json :=
  if ss = [] then none else some (Json.texts ss)

/-- The part for a line. -/
def linePart (line : Option UInt64) : Option Json :=
  line.map fun n => Json.nat n.toNat

/-- The part for a flag. -/
def flagPart (flag : Bool) : Option Json :=
  if flag then some (.bool true) else none

/-- The parts of fold marks. -/
def FoldMarks.parts (f : FoldMarks) : List (String × Option Json) :=
  [("opened", f.opened.map Json.text), ("closed", flagPart f.closed)]

/-- The parts of accessors. -/
def Accessors.parts (a : Accessors) : List (String × Option Json) :=
  [("get", a.get.map Json.text), ("set", a.set.map Json.text)]

/-- The parts of a content. -/
def Content.parts : Content → List (String × Option Json)
  | .field typeName comments =>
    [("type_name", some (Json.text typeName)), ("doc_comment", some (Json.texts comments))]
  | .method returnType signature body =>
    [("return_type", some (Json.text returnType)), ("signature", some (Json.texts signature)),
      ("body", some (Json.text body))]
  | .constructor signature body =>
    [("signature", some (Json.texts signature)), ("body", some (Json.text body))]
  | .property typeName accessors =>
    [("type_name", some (Json.text typeName)), ("accessors", some accessors.encode)]

/-- The name of a content's kind. -/
def Content.kindName : Content → String
  | .field .. => "field"
  | .method .. => "method"
  | .constructor .. => "constructor"
  | .property .. => "property"

/-- The part for annotations, which is left out if there are none. -/
def annotationsPart (a : Annotations) : Option Json :=
  if a.isEmpty then none else some (.array (a.toList.map Marker.encode))

/-- The part for fold marks, which is left out if there are none. -/
def foldPart (f : FoldMarks) : Option Json :=
  if f.isEmpty then none else some f.encode

/-- The parts of a member other than its body. -/
def MemberHead.parts (h : MemberHead) : List (String × Option Json) :=
  [("name", some (Json.text h.name)), ("annotations", annotationsPart h.annotations),
    ("first_line", linePart h.firstLine), ("is_abstract", flagPart h.isAbstract),
    ("fold", foldPart h.fold)]

/-- The parts of a type. -/
def TypeHeader.parts (t : TypeHeader) (members : List Json) : List (String × Option Json) :=
  [("name", some (Json.text t.name)), ("bases", textsPart t.bases),
    ("modifiers", textsPart t.modifiers), ("members", some (.array members)),
    ("first_line", linePart t.firstLine), ("closing_line", linePart t.closingLine)]

/-- The body of a member. -/
def Member.encodeBody : Member → Json
  | .plain _ content => Json.ofMembers content.encodeMembers
  | .nested _ header members =>
    Json.ofMembers
      (("kind", Json.text "nested_type") :: header.encodeMembers (members.map Member.encode))

/-- The parts of a member. -/
def Member.parts (m : Member) : List (String × Option Json) :=
  m.head.parts ++ [("body", some m.encodeBody)]

/-- The parts of a namespace. -/
def Namespace.parts (ns : Namespace) : List (String × Option Json) :=
  [("name", some (Json.text ns.name)), ("imports", some (Json.texts ns.imports)),
    ("types", some (.array (ns.types.map TypeDecl.encode))),
    ("first_line", linePart ns.firstLine), ("closing_line", linePart ns.closingLine)]

/-- The parts of a tree. -/
def DeclarationTree.parts (tree : DeclarationTree) : List (String × Option Json) :=
  [("namespaces", some (.array (tree.namespaces.map Namespace.encode)))]

/-- Every encoder writes a record of parts, the absent ones left out. These equations say which. -/
lemma FoldMarks.encode_eq_written (f : FoldMarks) :
    f.encode = Json.ofMembers (written f.parts) := by
  unfold encode parts
  cases f.closed <;> simp [written, flagPart, optionalFlag, optionalMember]

lemma Accessors.encode_eq_written (a : Accessors) :
    a.encode = Json.ofMembers (written a.parts) := by
  simp [encode, parts, written]

lemma Content.encodeMembers_eq_cons_written (c : Content) :
    c.encodeMembers = ("kind", Json.text c.kindName) :: written c.parts := by
  cases c <;> rfl

lemma MemberHead.encodeMembers_eq_written (h : MemberHead) :
    h.encodeMembers = written h.parts := by
  unfold encodeMembers parts annotationsPart foldPart
  cases h.annotations.isEmpty <;> cases h.firstLine <;> cases h.isAbstract <;>
    cases h.fold.isEmpty <;> rfl

/-- A type is one record with its members, whatever they are encoded to. -/
lemma TypeHeader.encodeMembers_eq_written (t : TypeHeader) (members : List Json) :
    t.encodeMembers members = written (t.parts members) := by
  unfold encodeMembers parts optionalTexts textsPart
  cases t.firstLine <;> cases t.closingLine <;> split_ifs <;> rfl

/-- The record of a nested type is that of its member and that of its type in one. -/
lemma Member.encode_eq_written (m : Member) : m.encode = Json.ofMembers (written m.parts) := by
  rw [parts, written_append, ← MemberHead.encodeMembers_eq_written]
  cases m with
  | plain h c => rw [encode]; rfl
  | nested h t ms => rw [encode, encodeAll_eq_map]; rfl

lemma TypeDecl.encode_eq_written (t : TypeDecl) :
    t.encode = Json.ofMembers (written (t.header.parts (t.members.map Member.encode))) := by
  rw [encode, TypeHeader.encodeMembers_eq_written]

lemma Namespace.encode_eq_written (ns : Namespace) :
    ns.encode = Json.ofMembers (written ns.parts) := by
  unfold encode parts
  cases ns.firstLine <;> cases ns.closingLine <;> rfl

lemma DeclarationTree.encode_eq_written (tree : DeclarationTree) :
    tree.encode = Json.ofMembers (written tree.parts) := rfl

/-! ### Heights -/

mutual

/-- How many members stand inside one another at most, from this one on. -/
def Member.height : Member → Nat
  | .plain .. => 1
  | .nested _ _ ms => Member.heights ms + 1

/-- The height of the highest member. -/
def Member.heights : List Member → Nat
  | [] => 0
  | m :: ms => max m.height (Member.heights ms)

end

/-- A list of members is as high as its highest member. -/
lemma Member.heights_le_iff {ms : List Member} {n : Nat} :
    heights ms ≤ n ↔ ∀ m ∈ ms, m.height ≤ n := by
  induction ms with
  | nil => simp [heights]
  | cons m ms ih => simp [heights, ih]

lemma Member.heights_append (ms ms' : List Member) :
    heights (ms ++ ms') = max (heights ms) (heights ms') := by
  induction ms with
  | nil => simp [heights]
  | cons m ms ih => rw [List.cons_append, heights, heights, ih, Nat.max_assoc]

/-- The height of the highest member of a tree. -/
def DeclarationTree.height (tree : DeclarationTree) : Nat :=
  Member.heights (tree.namespaces.flatMap fun ns => ns.types.flatMap TypeDecl.members)

/-- A tree is as high as the highest of its types. -/
lemma DeclarationTree.height_le_iff {tree : DeclarationTree} {n : Nat} :
    tree.height ≤ n ↔ ∀ ns ∈ tree.namespaces, ∀ t ∈ ns.types, Member.heights t.members ≤ n := by
  simp only [height, Member.heights_le_iff, List.mem_flatMap]
  constructor
  · intro h ns hns t ht m hm
    exact h m ⟨ns, hns, t, ht, hm⟩
  · rintro h m ⟨ns, hns, t, ht, hm⟩
    exact h ns hns t ht m hm

/-! ### The depth of an encoding -/

/-- A record is one level deeper than its parts. -/
lemma plainWithin_written {n : Nat} {parts : List (String × Option Json)}
    (h : ∀ p ∈ parts, ∀ v ∈ p.2, v.PlainWithin n) :
    (Json.ofMembers (written parts)).PlainWithin (n + 1) :=
  Json.plainWithin_ofMembers (forall_mem_written_iff.mpr h)

lemma plainWithin_textsPart (n : Nat) (ss : List String) :
    ∀ v ∈ textsPart ss, v.PlainWithin (n + 1) := by
  unfold textsPart
  split_ifs
  · simp
  · simpa using Json.plainWithin_texts n ss

lemma plainWithin_linePart (n : Nat) (line : Option UInt64) :
    ∀ v ∈ linePart line, v.PlainWithin n := by
  simpa [linePart] using fun l _ => Json.plainWithin_line n l

lemma plainWithin_flagPart (n : Nat) (flag : Bool) : ∀ v ∈ flagPart flag, v.PlainWithin n := by
  cases flag
  · simp [flagPart]
  · simpa [flagPart] using (⟨trivial, Nat.zero_le n⟩ : (Json.bool true).PlainWithin n)

lemma plainWithin_textPart (n : Nat) (text : Option String) :
    ∀ v ∈ text.map Json.text, v.PlainWithin n := by
  simpa using fun s _ => Json.plainWithin_text n s

lemma Marker.plainWithin_encode (m : Marker) : m.encode.PlainWithin 1 := by
  match m with
  | .generate => exact Json.plainWithin_text 1 _
  | .attribute name =>
    exact Json.plainWithin_ofMembers (by simpa using Json.plainWithin_text 0 name)

lemma FoldMarks.plainWithin_encode (f : FoldMarks) : f.encode.PlainWithin 1 := by
  rw [encode_eq_written]
  refine plainWithin_written (List.forall_mem_cons.mpr ⟨plainWithin_textPart 0 f.opened, ?_⟩)
  simpa using plainWithin_flagPart 0 f.closed

lemma Accessors.plainWithin_encode (a : Accessors) : a.encode.PlainWithin 1 := by
  rw [encode_eq_written]
  refine plainWithin_written (List.forall_mem_cons.mpr ⟨plainWithin_textPart 0 a.get, ?_⟩)
  simpa using plainWithin_textPart 0 a.set

/-- A text has no depth; the accessors and a list of texts have one level. -/
lemma Content.plainWithin_parts (c : Content) : ∀ p ∈ c.parts, ∀ v ∈ p.2, v.PlainWithin 1 := by
  cases c <;>
    simp [parts, Json.plainWithin_text, Json.plainWithin_texts, Accessors.plainWithin_encode]

lemma plainWithin_annotationsPart (a : Annotations) :
    ∀ v ∈ annotationsPart a, v.PlainWithin 2 := by
  unfold annotationsPart
  split_ifs
  · nofun
  · simpa using Json.plainWithin_array
      (List.forall_mem_map.mpr fun m (_ : m ∈ a.toList) => m.plainWithin_encode)

lemma plainWithin_foldPart (f : FoldMarks) : ∀ v ∈ foldPart f, v.PlainWithin 1 := by
  unfold foldPart
  split_ifs
  · nofun
  · simpa using f.plainWithin_encode

/-- The annotations are a list of markers, some of which are records. -/
lemma MemberHead.plainWithin_parts (h : MemberHead) :
    ∀ p ∈ h.parts, ∀ v ∈ p.2, v.PlainWithin 2 := by
  simp only [parts, List.forall_mem_cons]
  refine ⟨?_, plainWithin_annotationsPart _, plainWithin_linePart 2 _, plainWithin_flagPart 2 _,
    fun v hv => (plainWithin_foldPart _ v hv).mono (by decide), nofun⟩
  simpa using Json.plainWithin_text 2 h.name

/-- The list of the members is the deepest part that a type may have. -/
lemma TypeHeader.plainWithin_parts (t : TypeHeader) {n : Nat} {items : List Json}
    (hi : ∀ v ∈ items, v.PlainWithin n) :
    ∀ p ∈ t.parts items, ∀ v ∈ p.2, v.PlainWithin (n + 1) := by
  simp only [parts, List.forall_mem_cons]
  refine ⟨?_, plainWithin_textsPart n _, plainWithin_textsPart n _, ?_, plainWithin_linePart _ _,
    plainWithin_linePart _ _, nofun⟩
  · simpa using Json.plainWithin_text (n + 1) t.name
  · simpa using Json.plainWithin_array hi

/-- A member opens one object for itself and one for its body. -/
lemma Member.plainWithin_encode_of_encodeBody {m : Member} {n : Nat}
    (hb : m.encodeBody.PlainWithin (n + 2)) : m.encode.PlainWithin (n + 3) := by
  rw [encode_eq_written, parts]
  refine plainWithin_written (List.forall_mem_append.mpr ⟨?_, by simpa using hb⟩)
  exact fun p hp v hv => (m.head.plainWithin_parts p hp v hv).mono (by omega)

mutual

/-- Each member on the way inside takes three levels. -/
theorem Member.plainWithin_encode (m : Member) : m.encode.PlainWithin (3 * m.height) := by
  match m with
  | .plain h c =>
    refine plainWithin_encode_of_encodeBody ?_
    rw [encodeBody, c.encodeMembers_eq_cons_written]
    exact Json.plainWithin_ofMembers (List.forall_mem_cons.mpr
      ⟨Json.plainWithin_text 1 _, forall_mem_written_iff.mpr c.plainWithin_parts⟩)
  | .nested h t ms =>
    rw [height, Nat.mul_add]
    refine plainWithin_encode_of_encodeBody ?_
    rw [encodeBody, t.encodeMembers_eq_written]
    refine Json.plainWithin_ofMembers (List.forall_mem_cons.mpr
      ⟨Json.plainWithin_text _ _, forall_mem_written_iff.mpr (t.plainWithin_parts ?_)⟩)
    rw [List.forall_mem_map]
    exact Member.plainWithin_encode_of_mem ms

/-- The members of a list are as deep as the highest of them allows. -/
lemma Member.plainWithin_encode_of_mem (ms : List Member) :
    ∀ m ∈ ms, m.encode.PlainWithin (3 * heights ms) := by
  match ms with
  | [] => exact nofun
  | m :: ms =>
    rw [heights, List.forall_mem_cons]
    exact ⟨m.plainWithin_encode.mono (by omega), fun m' hm' =>
      (Member.plainWithin_encode_of_mem ms m' hm').mono (by omega)⟩

end

lemma Member.depth_encodeBody_pos (m : Member) : 0 < m.encodeBody.depth := by
  cases m <;> simp [encodeBody, Json.ofMembers, Json.depth]

lemma Member.isPlain_encodeBody (m : Member) : m.encodeBody.IsPlain := by
  have hm := m.plainWithin_encode.plain
  rw [encode_eq_written, Json.isPlain_ofMembers_iff] at hm
  exact forall_mem_written_iff.mp hm ("body", some m.encodeBody) (by simp [parts]) _ rfl

/-- A type of a namespace is a record with a list of members. -/
lemma TypeDecl.plainWithin_encode (t : TypeDecl) :
    t.encode.PlainWithin (3 * Member.heights t.members + 2) := by
  rw [encode_eq_written]
  exact plainWithin_written (t.header.plainWithin_parts
    (List.forall_mem_map.mpr (Member.plainWithin_encode_of_mem t.members)))

/-- The types are one list, the namespace one record around it. -/
lemma Namespace.plainWithin_encode {ns : Namespace} {n : Nat}
    (h : ∀ t ∈ ns.types, Member.heights t.members ≤ n) : ns.encode.PlainWithin (3 * n + 4) := by
  rw [encode_eq_written]
  refine plainWithin_written ?_
  simp only [parts, List.forall_mem_cons]
  refine ⟨?_, ?_, ?_, plainWithin_linePart _ _, plainWithin_linePart _ _, nofun⟩
  · simpa using Json.plainWithin_text _ ns.name
  · simpa using Json.plainWithin_texts _ ns.imports
  · have htypes : (Json.array (ns.types.map TypeDecl.encode)).PlainWithin (3 * n + 3) :=
      Json.plainWithin_array (List.forall_mem_map.mpr fun t ht =>
        t.plainWithin_encode.mono (by have := h t ht; omega))
    simpa using htypes

/-- A tree opens six arrays and objects besides those for its members. -/
theorem DeclarationTree.plainWithin_encode (tree : DeclarationTree) :
    tree.encode.PlainWithin (3 * tree.height + 6) := by
  refine Json.plainWithin_ofMembers (List.forall_mem_singleton.mpr (Json.plainWithin_array ?_))
  rw [List.forall_mem_map]
  exact fun ns hns => Namespace.plainWithin_encode (height_le_iff.mp le_rfl ns hns)

/-! ### The height of what is decoded -/

namespace Interchange

/-- A decoded member has a head and a body from one record. -/
lemma exists_body?_of_member {source : Source} {levels : Nat} {v : Json} {m : Member}
    (h : member source (levels + 1) v = some m) :
    ∃ head body, body? source head levels body = some m := by
  simp only [member, Option.bind_eq_bind, Option.bind_eq_some_iff] at h
  obtain ⟨parts, -, h⟩ := h
  split at h
  · simp only [Option.bind_eq_some_iff, required] at h
    obtain ⟨name, -, annotations, -, line, -, isAbstract, -, fold, -, body, -, h⟩ := h
    exact ⟨_, body, h⟩
  · cases h

/-- The members of a type are no higher than its member list allows. -/
lemma heights_of_typeParts? {levels n : Nat} {members? : Json → Option (List Member)} {v : Json}
    {t : TypeDecl} (hm : ∀ part ms, members? part = some ms → 3 * Member.heights ms ≤ n)
    (h : typeParts? levels members? v = some t) : 3 * Member.heights t.members ≤ n := by
  simp only [typeParts?, Option.bind_eq_bind, Option.bind_eq_some_iff] at h
  obtain ⟨parts, -, h⟩ := h
  split at h
  · next members _ _ =>
    simp only [Option.bind_eq_some_iff] at h
    obtain ⟨name, -, bases, -, modifiers, -, first, -, closing, -, ms, hms, h⟩ := h
    cases h
    cases members with
    | none =>
      cases hms
      exact Nat.zero_le n
    | some part => exact hm part ms hms
  · cases h

/-- A member with a plain body is no type. A type comes from content that is held back, so its
members do as well. -/
lemma body?_cases {source : Source} {head : MemberHead} {levels : Nat} {v : Json} {m : Member}
    (h : body? source head (levels + 1) v = some m) :
    (∃ c, m = .plain head c) ∨
      ∃ t rest, typeParts? levels (members? .held levels) rest = some t ∧
        m = .nested head t.header t.members := by
  rw [body?] at h
  split at h
  · cases h
  · simp only [Option.bind_eq_bind, Option.bind_eq_some_iff] at h
    obtain ⟨⟨kind, rest⟩, -, h⟩ := h
    split at h
    · obtain ⟨t, ht, h⟩ := Option.bind_eq_some_iff.mp h
      cases h
      exact .inr ⟨t, rest, ht, rfl⟩
    · obtain ⟨c, -, rfl⟩ := Option.map_eq_some_iff.mp h
      exact .inl ⟨c, rfl⟩

lemma exists_of_mem_mapM {α β : Type} {f : α → Option β} {as : List α} {bs : List β}
    (h : as.mapM f = some bs) {b : β} (hb : b ∈ bs) : ∃ a, f a = some b := by
  induction as generalizing bs with
  | nil =>
    cases h
    cases hb
  | cons a as ih =>
    simp only [List.mapM_cons, Option.bind_eq_bind, Option.bind_eq_some_iff] at h
    obtain ⟨b', hb', bs', hbs', h⟩ := h
    cases h
    rcases List.mem_cons.mp hb with rfl | hb
    · exact ⟨a, hb'⟩
    · exact ih hbs' hb

/-- A member list takes three levels for each member on the way inside. -/
theorem heights_of_members? {source : Source} {levels : Nat} {v : Json} {ms : List Member}
    (h : members? source levels v = some ms) : 3 * Member.heights ms ≤ levels := by
  induction levels using Nat.strong_induction_on generalizing source v ms with
  | _ levels ih =>
    suffices hms : ∀ m ∈ ms, m.height ≤ levels / 3 by
      have := Member.heights_le_iff.mpr hms
      omega
    intro m hm
    -- the list, the member and its body take one level each
    match levels, v with
    | 0, _ => simp [members?] at h
    | levels + 1, .array items =>
      obtain ⟨item, hitem⟩ := exists_of_mem_mapM h hm
      match levels with
      | 0 => simp [member] at hitem
      | levels + 1 =>
        obtain ⟨head, body, hbody⟩ := exists_body?_of_member hitem
        match levels with
        | 0 => simp [body?] at hbody
        | levels + 1 =>
          rcases body?_cases hbody with ⟨c, rfl⟩ | ⟨t, rest, ht, rfl⟩
          · rw [Member.height]
            omega
          · have hinner := heights_of_typeParts? (fun _ _ => ih levels (by omega)) ht
            rw [Member.height]
            omega

/-- A type is decoded one level above its members. -/
lemma heights_of_type? {levels : Nat} {v : Json} {t : TypeDecl} (h : type? levels v = some t) :
    3 * Member.heights t.members + 1 ≤ levels := by
  match levels with
  | 0 => cases h
  | levels + 1 =>
    have := heights_of_typeParts? (fun _ _ => heights_of_members?) h
    omega

/-- Each item of a part was decoded with one level less. -/
lemma exists_of_mem_optional_items? {α : Type} {decode : Nat → Json → Option α} {levels : Nat}
    {part : Option Json} {as : List α} (h : optional [] (items? decode levels) part = some as)
    {a : α} (ha : a ∈ as) : ∃ k item, levels = k + 1 ∧ decode k item = some a := by
  cases part with
  | none =>
    cases h
    cases ha
  | some v =>
    rw [optional, items?.eq_def] at h
    split at h
    · next levels items =>
      obtain ⟨item, hitem⟩ := exists_of_mem_mapM h ha
      exact ⟨levels, item, rfl, hitem⟩
    · cases h

/-- A namespace is decoded three levels above the members of its types: there is its own record, the
list of the types, and the record of each. -/
lemma heights_of_namespace? {levels : Nat} {v : Json} {ns : Namespace}
    (h : namespace? levels v = some ns) :
    ∀ t ∈ ns.types, 3 * Member.heights t.members + 3 ≤ levels := by
  intro t ht
  match levels with
  | 0 => cases h
  | levels + 1 =>
    simp only [namespace?, Option.bind_eq_bind, Option.bind_eq_some_iff] at h
    obtain ⟨parts, -, h⟩ := h
    split at h
    · simp only [Option.bind_eq_some_iff] at h
      obtain ⟨name, -, imports, -, types, htypes, first, -, closing, -, h⟩ := h
      cases h
      obtain ⟨k, item, rfl, hitem⟩ := exists_of_mem_optional_items? htypes ht
      have := heights_of_type? hitem
      omega
    · cases h

/-- A tree takes five levels before its first member lists. -/
theorem height_of_tree? {levels : Nat} {v : Json} {tree : DeclarationTree}
    (h : tree? levels v = some tree) : 3 * tree.height ≤ levels - 5 := by
  suffices htypes : ∀ ns ∈ tree.namespaces, ∀ t ∈ ns.types,
      Member.heights t.members ≤ (levels - 5) / 3 by
    have := DeclarationTree.height_le_iff.mpr htypes
    omega
  intro ns hns t ht
  match levels with
  | 0 => cases h
  | levels + 1 =>
    simp only [tree?, Option.bind_eq_bind, Option.bind_eq_some_iff] at h
    obtain ⟨parts, -, h⟩ := h
    split at h
    · simp only [Option.bind_eq_some_iff] at h
      obtain ⟨namespaces, hnamespaces, h⟩ := h
      cases h
      obtain ⟨k, item, rfl, hitem⟩ := exists_of_mem_optional_items? hnamespaces hns
      have := heights_of_namespace? hitem t ht
      omega
    · cases h

/-- A parsed source holds its tree one level down. -/
lemma height_of_parsedSource? {levels : Nat} {v : Json} {parsed : ParsedSource}
    (h : parsedSource? levels v = some parsed) : 3 * parsed.tree.height ≤ levels - 6 := by
  match levels with
  | 0 => cases h
  | levels + 1 =>
    simp only [parsedSource?, Option.bind_eq_bind, Option.bind_eq_some_iff] at h
    obtain ⟨parts, -, h⟩ := h
    split at h
    · simp only [Option.bind_eq_some_iff] at h
      obtain ⟨diagnostics, -, tree, htree, h⟩ := h
      cases h
      obtain ⟨part, -, hpart⟩ := Option.bind_eq_some_iff.mp htree
      exact height_of_tree? hpart
    · cases h

end Interchange

end Graft
