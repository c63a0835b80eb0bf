import Graft.Format
import Graft.Proofs.Interchange.Depth

/-!
# Decoding what was encoded

Every encoding is a plain value, and is decoded to what it is the encoding of if it is not too deep:
`tree?_encode`.
-/

namespace Graft

/-! ### Annotations -/

/-- A name behind all others goes to the end. -/
lemma insertName_of_forall_lt {name : String} {ns : List String} (h : ∀ n ∈ ns, n < name) :
    insertName name ns = ns ++ [name] := by
  induction ns with
  | nil => rfl
  | cons n ns ih =>
    have hlt := h n (by simp)
    have hne : name ≠ n := fun he => String.lt_irrefl n (he ▸ hlt)
    rw [insertName, if_neg (String.lt_asymm hlt), if_neg hne,
      ih fun m hm => h m (by simp [hm])]
    rfl

namespace Annotations

/-- Attributes that come in order are kept in order. -/
lemma foldl_insert_attributes (a : Annotations) {names : List String}
    (h : (a.attributes ++ names).Pairwise (· < ·)) :
    (names.map Marker.attribute).foldl insert a = ⟨a.isGenerated, a.attributes ++ names, h⟩ := by
  induction names generalizing a with
  | nil => simp
  | cons n ns ih =>
    have hlt : ∀ m ∈ a.attributes, m < n := fun m hm =>
      (List.pairwise_append.mp h).2.2 m hm n (by simp)
    have hinsert : a.insert (.attribute n) = ⟨a.isGenerated, a.attributes ++ [n], by
        rw [← insertName_of_forall_lt hlt]
        exact pairwise_insertName a.sorted⟩ := by
      simp only [insert, insertName_of_forall_lt hlt]
    rw [List.map_cons, List.foldl_cons, hinsert, ih _ (by simpa using h)]
    simp

/-- A set of annotations is the set of the annotations it lists. -/
theorem ofList_toList (a : Annotations) : ofList a.toList = a := by
  obtain ⟨gen, names, hs⟩ := a
  rw [ofList, toList, List.foldl_append]
  cases gen with
  | true => exact foldl_insert_attributes ⟨true, [], .nil⟩ hs
  | false => exact foldl_insert_attributes ⟨false, [], .nil⟩ hs

end Annotations

namespace Interchange

/-! ### Decoding parts -/

/-- A part that may be absent is decoded to what was encoded. -/
lemma optional_map_encode {α : Type} {decode : Json → Option α} {encode : α → Json}
    (h : ∀ a, nullable? decode (encode a) = some (some a)) (o : Option α) :
    optional none (nullable? decode) (o.map encode) = some o := by
  cases o with
  | none => rfl
  | some a => exact h a

lemma optional_text (o : Option String) :
    optional none (nullable? text?) (o.map Json.text) = some o :=
  optional_map_encode (fun _ => rfl) o

lemma optional_linePart (line : Option UInt64) :
    optional none (nullable? line?) (linePart line) = some line := by
  refine optional_map_encode (fun n => ?_) line
  rw [Json.nat, nullable?, line?, Json.Number.toWord?_ofNat_toNat]
  · rfl
  · exact nofun

lemma optional_flagPart (flag : Bool) : optional false flag? (flagPart flag) = some flag := by
  cases flag <;> rfl

/-- A list is decoded item by item, each one level below it. -/
lemma items?_map {α : Type} {decode : Nat → Json → Option α} {encode : α → Json} {as : List α}
    {levels : Nat} (hd : (Json.array (as.map encode)).depth ≤ levels)
    (h : ∀ a ∈ as, ∀ k, (encode a).depth ≤ k → decode k (encode a) = some a) :
    items? decode levels (.array (as.map encode)) = some as := by
  obtain ⟨k, rfl, hk⟩ := Json.depth_array_le_iff.mp hd
  rw [List.forall_mem_map] at hk
  have hmap : (as.map encode).mapM (decode k) = some (as.map id) :=
    mapM_eq_some_map fun a ha => h a ha k (hk a ha)
  rwa [List.map_id] at hmap

lemma texts?_texts {ss : List String} {levels : Nat} (hd : (Json.texts ss).depth ≤ levels) :
    texts? levels (Json.texts ss) = some ss :=
  items?_map hd fun _ _ _ _ => rfl

lemma optional_textsPart {ss : List String} {levels : Nat}
    (hd : ∀ v ∈ textsPart ss, v.depth ≤ levels) :
    optional [] (texts? levels) (textsPart ss) = some ss := by
  unfold textsPart at hd ⊢
  split_ifs at hd ⊢ with hs
  · rw [hs]
    rfl
  · exact texts?_texts (hd _ rfl)

lemma marker?_encode (source : Source) (m : Marker) {levels : Nat} (hd : m.encode.depth ≤ levels) :
    marker? source levels m.encode = some m := by
  match m with
  | .generate => cases levels <;> rfl
  | .attribute name =>
    obtain ⟨k, rfl, -⟩ := Json.depth_ofMembers_le_iff.mp hd
    rfl

/-- Annotations without any marker are not written, and an absent part is read as none. -/
lemma optional_annotationsPart (source : Source) (a : Annotations) {levels : Nat}
    (hd : ∀ v ∈ annotationsPart a, v.depth ≤ levels) :
    optional {} (annotations? source levels) (annotationsPart a) = some a := by
  unfold annotationsPart at hd ⊢
  split_ifs at hd ⊢ with ha
  · obtain ⟨gen, names, hs⟩ := a
    simp only [Annotations.isEmpty, Bool.and_eq_true, Bool.not_eq_true', List.isEmpty_iff] at ha
    obtain ⟨rfl, rfl⟩ := ha
    rfl
  · rw [optional, annotations?,
      items?_map (hd _ rfl) fun m _ k hk => marker?_encode source m hk, Option.map_some,
      Annotations.ofList_toList]

lemma fold?_encode (f : FoldMarks) {levels : Nat} (hd : f.encode.depth ≤ levels) :
    fold? levels f.encode = some f := by
  have hparts : parts? ["opened", "closed"] f.encode =
      some [f.opened.map Json.text, flagPart f.closed] := by
    rw [f.encode_eq_written]
    exact parts?_written (by decide) rfl
  obtain ⟨k, rfl, -⟩ := Json.depth_ofMembers_le_iff.mp hd
  rw [fold?, hparts]
  simp only [Option.bind_eq_bind, Option.bind_some, optional_text, optional_flagPart]
  rfl

/-- Likewise for fold marks. -/
lemma optional_foldPart (f : FoldMarks) {levels : Nat}
    (hd : ∀ v ∈ foldPart f, v.depth ≤ levels) :
    optional {} (fold? levels) (foldPart f) = some f := by
  unfold foldPart at hd ⊢
  split_ifs at hd ⊢ with hf
  · rw [FoldMarks.isEmpty_iff.mp hf]
    rfl
  · exact fold?_encode f (hd _ rfl)

lemma accessors?_encode (a : Accessors) {levels : Nat} (hd : a.encode.depth ≤ levels) :
    accessors? levels a.encode = some a := by
  have hparts : parts? ["get", "set"] a.encode =
      some [a.get.map Json.text, a.set.map Json.text] := by
    rw [a.encode_eq_written]
    exact parts?_written (by decide) rfl
  obtain ⟨k, rfl, -⟩ := Json.depth_ofMembers_le_iff.mp hd
  rw [accessors?, hparts]
  simp only [Option.bind_eq_bind, Option.bind_some, optional_text]
  rfl

/-! ### Bodies -/

/-- A body says its kind in its first part, and in no other. -/
lemma tagged?_ofMembers (source : Source) {word : String} {kind : MemberKind}
    (hw : kindNames.lookup word = some kind) {ms : List (String × Json)}
    (hms : ∀ m ∈ ms, m.1 ≠ "kind") :
    tagged? source (Json.ofMembers (("kind", Json.text word) :: ms)) =
      some (kind, Json.ofMembers ms) := by
  have hrest : ms.filter (·.1 = "kind") = [] := by
    simpa [List.filter_eq_nil_iff] using hms
  have hkind : member? (spelled (("kind", Json.text word) :: ms)) "kind" =
      some (some (Json.text word)) := by
    rw [member?_spelled, List.filter_cons_of_pos (by simp), hrest]
  have hfilter : (spelled (("kind", Json.text word) :: ms)).filter (·.1 ≠ some "kind") =
      spelled ms := by
    unfold spelled
    rw [List.map_cons, List.filter_cons_of_neg (by simp), List.filter_eq_self, List.forall_mem_map]
    exact fun m hm => by simpa using hms m hm
  rw [Json.ofMembers_eq, tagged?, hkind, hfilter]
  simp only [Option.bind_eq_bind, Option.bind_some, Json.text, kind?, hw]
  rfl

/-- The content of a member is decoded from the rest of its body. -/
lemma content?_encode (source : Source) (c : Content) {levels : Nat}
    (hd : (Json.ofMembers c.encodeMembers).depth ≤ levels + 1) :
    ∃ kind rest, tagged? source (Json.ofMembers c.encodeMembers) = some (kind, rest) ∧
      kind ≠ .nestedType ∧ content? levels kind rest = some c := by
  rw [c.encodeMembers_eq_cons_written] at hd ⊢
  have hparts := depth_part_le (Json.depth_tail_le hd)
  have hkind : ∀ m ∈ written c.parts, m.1 ≠ "kind" := by
    intro m hm he
    have := name_mem_of_mem_written hm
    rw [he] at this
    cases c <;> simp [Content.parts] at this
  cases c with
  | field typeName comments =>
    have hp : parts? ["type_name", "doc_comment"]
        (Json.ofMembers (written (Content.field typeName comments).parts)) =
          some [some (Json.text typeName), some (Json.texts comments)] :=
      parts?_written (by decide) rfl
    refine ⟨.field, _, tagged?_ofMembers source rfl hkind, by decide, ?_⟩
    rw [content?, hp]
    have htexts := texts?_texts
      (hparts ("doc_comment", some (Json.texts comments)) (by simp [Content.parts]) _ rfl)
    simp only [Option.bind_eq_bind, Option.bind_some, optional, htexts]
    rfl
  | method returnType signature body =>
    have hp : parts? ["return_type", "signature", "body"]
        (Json.ofMembers (written (Content.method returnType signature body).parts)) =
          some [some (Json.text returnType), some (Json.texts signature),
            some (Json.text body)] :=
      parts?_written (by decide) rfl
    refine ⟨.method, _, tagged?_ofMembers source rfl hkind, by decide, ?_⟩
    rw [content?, hp]
    have htexts := texts?_texts
      (hparts ("signature", some (Json.texts signature)) (by simp [Content.parts]) _ rfl)
    simp only [Option.bind_eq_bind, Option.bind_some, optional, htexts]
    rfl
  | constructor signature body =>
    have hp : parts? ["signature", "body"]
        (Json.ofMembers (written (Content.constructor signature body).parts)) =
          some [some (Json.texts signature), some (Json.text body)] :=
      parts?_written (by decide) rfl
    refine ⟨.constructor, _, tagged?_ofMembers source rfl hkind, by decide, ?_⟩
    rw [content?, hp]
    have htexts := texts?_texts
      (hparts ("signature", some (Json.texts signature)) (by simp [Content.parts]) _ rfl)
    simp only [Option.bind_eq_bind, Option.bind_some, optional, htexts]
    rfl
  | property typeName accessors =>
    have hp : parts? ["type_name", "accessors"]
        (Json.ofMembers (written (Content.property typeName accessors).parts)) =
          some [some (Json.text typeName), some accessors.encode] :=
      parts?_written (by decide) rfl
    refine ⟨.property, _, tagged?_ofMembers source rfl hkind, by decide, ?_⟩
    rw [content?, hp]
    have haccessors := accessors?_encode accessors
      (hparts ("accessors", some accessors.encode) (by simp [Content.parts]) _ rfl)
    simp only [Option.bind_eq_bind, Option.bind_some, optional, haccessors]
    rfl

/-- A type is decoded from its parts if its members are. -/
lemma typeParts?_encode (t : TypeHeader) (ms : List Member) {levels : Nat}
    {members? : Json → Option (List Member)} {items : List Json}
    (hd : ∀ p ∈ t.parts items, ∀ v ∈ p.2, v.depth ≤ levels)
    (hms : members? (.array items) = some ms) :
    typeParts? levels members? (Json.ofMembers (t.encodeMembers items)) = some ⟨t, ms⟩ := by
  have hp : parts? ["name", "bases", "modifiers", "members", "first_line", "closing_line"]
      (Json.ofMembers (t.encodeMembers items)) =
        some [some (Json.text t.name), textsPart t.bases, textsPart t.modifiers,
          some (.array items), linePart t.firstLine, linePart t.closingLine] := by
    rw [t.encodeMembers_eq_written]
    exact parts?_written (by decide) rfl
  have hbases := optional_textsPart (hd ("bases", textsPart t.bases) (by simp [TypeHeader.parts]))
  have hmodifiers := optional_textsPart
    (hd ("modifiers", textsPart t.modifiers) (by simp [TypeHeader.parts]))
  rw [typeParts?, hp]
  simp only [Option.bind_eq_bind, Option.bind_some, required, hbases, hmodifiers,
    optional_linePart]
  simp only [Json.text, text?, optional, hms, Option.bind_some]
  rfl

/-! ### Members, types, namespaces -/

/-- A member is what its body is decoded to. -/
lemma member_encode_eq_body? (source : Source) (m : Member) {levels : Nat}
    (hd : m.encode.depth ≤ levels + 1) :
    member source (levels + 1) m.encode = body? source m.head levels m.encodeBody := by
  have hparts : parts? ["name", "annotations", "first_line", "is_abstract", "fold", "body"]
      m.encode = some (m.parts.map Prod.snd) := by
    rw [m.encode_eq_written]
    exact parts?_written (by decide) rfl
  have hdepth := depth_part_le (m.encode_eq_written ▸ hd)
  have hannotations := optional_annotationsPart source m.head.annotations
    (hdepth ("annotations", annotationsPart m.head.annotations)
      (by simp [Member.parts, MemberHead.parts]))
  have hfold := optional_foldPart m.head.fold
    (hdepth ("fold", foldPart m.head.fold) (by simp [Member.parts, MemberHead.parts]))
  rw [member, hparts]
  simp only [Option.bind_eq_bind, Option.bind_some, Member.parts, MemberHead.parts,
    List.cons_append, List.nil_append, List.map_cons, List.map_nil, hannotations, hfold,
    optional_linePart, optional_flagPart]
  rfl

/-- The body of a member is plain, so it can be held as data. -/
lemma body?_encodeBody (source : Source) (m : Member) {levels : Nat}
    (hd : m.encodeBody.depth ≤ levels + 1) :
    body? source m.head (levels + 1) m.encodeBody =
      (tagged? source m.encodeBody).bind fun body =>
        if body.1 = .nestedType then
          (typeParts? levels (members? .held levels) body.2).bind fun decl =>
            some (.nested m.head decl.header decl.members)
        else
          (content? levels body.1 body.2).map (.plain m.head) := by
  rw [body?, if_neg]
  · rfl
  · simp [Json.isHoldable_of_isPlain m.isPlain_encodeBody hd]

mutual

/-- A member is decoded from its encoding. -/
theorem member_encode (source : Source) (m : Member) {levels : Nat}
    (hd : m.encode.depth ≤ levels) : member source levels m.encode = some m := by
  obtain ⟨levels, rfl, -⟩ := Json.depth_ofMembers_le_iff.mp (m.encode_eq_written ▸ hd)
  have hbody : m.encodeBody.depth ≤ levels :=
    depth_part_le (m.encode_eq_written ▸ hd) ("body", some m.encodeBody)
      (by simp [Member.parts]) _ rfl
  have hpos := m.depth_encodeBody_pos
  rw [member_encode_eq_body? source m hd]
  obtain ⟨levels, rfl⟩ : ∃ k, levels = k + 1 := ⟨levels - 1, by omega⟩
  rw [body?_encodeBody source m hbody]
  match m with
  | .plain h c =>
    obtain ⟨kind, rest, htag, hkind, hcontent⟩ := content?_encode source c hbody
    rw [Member.encodeBody, htag]
    simp only [Option.bind_some, if_neg hkind, hcontent]
    rfl
  | .nested h t ms =>
    rw [Member.encodeBody, t.encodeMembers_eq_written] at hbody ⊢
    have hparts := depth_part_le (Json.depth_tail_le hbody)
    have hkind : ∀ p ∈ written (t.parts (ms.map Member.encode)), p.1 ≠ "kind" := by
      intro p hp he
      have := name_mem_of_mem_written hp
      simp [he, TypeHeader.parts] at this
    have hms : members? .held levels (.array (ms.map Member.encode)) = some ms := by
      obtain ⟨k, rfl, hitems⟩ := Json.depth_array_le_iff.mp
        (hparts ("members", some (.array (ms.map Member.encode))) (by simp [TypeHeader.parts]) _
          rfl)
      exact members_encode .held ms (List.forall_mem_map.mp hitems)
    rw [tagged?_ofMembers source rfl hkind]
    simp only [Option.bind_some, ← t.encodeMembers_eq_written, typeParts?_encode t ms hparts hms]
    rfl

lemma members_encode (source : Source) (ms : List Member) {levels : Nat}
    (hd : ∀ m ∈ ms, m.encode.depth ≤ levels) :
    (ms.map Member.encode).mapM (member source levels) = some ms := by
  match ms with
  | [] => rfl
  | m :: ms =>
    rw [List.map_cons, List.mapM_cons, member_encode source m (hd m (by simp)),
      members_encode source ms fun m' hm' => hd m' (by simp [hm'])]
    rfl

end

/-- The members are decoded one level below their list, from a text and from held content alike. -/
lemma members?_encode (source : Source) (ms : List Member) {levels : Nat}
    (hd : (Json.array (ms.map Member.encode)).depth ≤ levels) :
    members? source levels (.array (ms.map Member.encode)) = some ms := by
  obtain ⟨k, rfl, hitems⟩ := Json.depth_array_le_iff.mp hd
  exact members_encode source ms (List.forall_mem_map.mp hitems)

lemma type?_encode (t : TypeDecl) {levels : Nat} (hd : t.encode.depth ≤ levels) :
    type? levels t.encode = some t := by
  obtain ⟨levels, rfl, -⟩ := Json.depth_ofMembers_le_iff.mp hd
  have hparts := depth_part_le (t.encode_eq_written ▸ hd)
  have hms := members?_encode .read t.members
    (hparts ("members", some (.array (t.members.map Member.encode))) (by simp [TypeHeader.parts]) _
      rfl)
  exact typeParts?_encode t.header t.members hparts hms

lemma namespace?_encode (ns : Namespace) {levels : Nat}
    (hd : ns.encode.depth ≤ levels) : namespace? levels ns.encode = some ns := by
  obtain ⟨levels, rfl, -⟩ := Json.depth_ofMembers_le_iff.mp hd
  have hd := depth_part_le (ns.encode_eq_written ▸ hd)
  have hparts : parts? ["name", "imports", "types", "first_line", "closing_line"] ns.encode =
      some (ns.parts.map Prod.snd) := by
    rw [ns.encode_eq_written]
    exact parts?_written (by decide) rfl
  have himports := texts?_texts
    (hd ("imports", some (Json.texts ns.imports)) (by simp [Namespace.parts]) _ rfl)
  have htypes := items?_map
    (hd ("types", some (.array (ns.types.map TypeDecl.encode))) (by simp [Namespace.parts]) _ rfl)
    fun t _ k hk => type?_encode t hk
  rw [namespace?, hparts]
  simp only [Option.bind_eq_bind, Option.bind_some, Namespace.parts, List.map_cons, List.map_nil,
    optional_linePart]
  simp only [optional, himports, htypes]
  rfl

/-- A tree is decoded from its encoding if that is not too deep. -/
theorem tree?_encode (tree : DeclarationTree) {levels : Nat} (hd : tree.encode.depth ≤ levels) :
    tree? levels tree.encode = some tree := by
  obtain ⟨levels, rfl, -⟩ := Json.depth_ofMembers_le_iff.mp hd
  have hd := depth_part_le (tree.encode_eq_written ▸ hd)
  have hparts : parts? ["namespaces"] tree.encode = some (tree.parts.map Prod.snd) := by
    rw [tree.encode_eq_written]
    exact parts?_written (by decide) rfl
  have hnamespaces := items?_map
    (hd ("namespaces", some (.array (tree.namespaces.map Namespace.encode)))
      (by simp [DeclarationTree.parts]) _ rfl)
    fun ns _ k hk => namespace?_encode ns hk
  rw [tree?, hparts]
  simp only [Option.bind_eq_bind, Option.bind_some, DeclarationTree.parts, List.map_cons,
    List.map_nil, optional, hnamespaces]
  rfl

/-! ### Rendered trees -/

/-- A rendered tree is read back as the same tree, if it is not too deep. -/
theorem ofText?_render (tree : DeclarationTree) (hd : tree.encode.depth ≤ maxLevels) :
    ofText? tree? (Format.json.render tree) = some tree := by
  have hrender : Format.json.render tree =
      String.ofList (Json.print .indented 0 tree.encode ++ ['\n']) := by
    rw [String.ofList_append]
    rfl
  rw [ofText?, hrender, Json.parse?_print Json.Layout.isBlank_indented
    tree.plainWithin_encode.plain (List.forall_mem_singleton.mpr rfl), Option.bind_some,
    tree?_encode tree hd]

end Interchange

end Graft
