import Graft.Proofs.Recovery.Blocks
import Graft.Proofs.Recovery.Comments
import Graft.Proofs.Text.Cuts

/-!
# Recovery on a machine

A machine counts lines, scopes and nesting in words of 64 bits and cuts texts at byte offsets. There
is much that it cannot go through with: a sum that does not fit into a word, a difference below
zero, a range outside a list, a cut inside a character. This module states the recovery of a member
that is no type as such a machine runs it, with a trap at each of these operations, and shows of
every function that it runs into none and gives what it gives without a machine.

The depth of a block and the offsets in a text need no check against the size of a word: both are at
most the length of a text that is held in memory. All loops are recursions that end: over a text,
over lines, over the number of open scopes, and for the search for comments over the number of the
line.
-/

namespace Graft.Machine

open Source Text Recovery

variable {ε φ α β : Type}

/-- What a machine cannot go through with. -/
inductive Trap where
  /-- A sum that does not fit into a word. -/
  | overflow
  /-- A difference below zero. -/
  | belowZero
  /-- A value is to be moved between two bounds of which the lower one is the greater. -/
  | crossedBounds
  /-- A range of a list that ends before it starts or behind the list. -/
  | outsideList
  /-- A cut inside a character or behind the text. -/
  | insideCharacter
deriving DecidableEq, Repr

/-- How a computation on a machine ends early: at a trap, or with a failure that it reports. -/
inductive Halt (ε : Type) where
  | trap (trap : Trap)
  | failure (failure : ε)
deriving DecidableEq, Repr

/-- The same end with another failure. -/
def Halt.map (f : ε → φ) : Halt ε → Halt φ
  | .trap t => .trap t
  | .failure e => .failure (f e)

/-! ### Operations that may trap -/

/-- The sum of two words. -/
def sum (a b : Nat) : Except (Halt ε) Nat :=
  if a + b < UInt64.size then .ok (a + b) else .error (.trap .overflow)

/-- The difference of two words. -/
def difference (a b : Nat) : Except (Halt ε) Nat :=
  if b ≤ a then .ok (a - b) else .error (.trap .belowZero)

/-- The value, or the bound that it lies beyond. -/
def clamp (n lo hi : Nat) : Except (Halt ε) Nat :=
  if lo ≤ hi then .ok (max lo (min n hi)) else .error (.trap .crossedBounds)

/-- The elements of a list from one index on and before another one. -/
def range (as : List α) (lo hi : Nat) : Except (Halt ε) (List α) :=
  if lo ≤ hi ∧ hi ≤ as.length then .ok ((as.take hi).drop lo) else .error (.trap .outsideList)

/-- The two halves of a text that is cut at a byte offset. -/
def cut (offset : Nat) (s : List Char) : Except (Halt ε) (List Char × List Char) :=
  match cutAt? offset s with
  | some halves => .ok halves
  | none => .error (.trap .insideCharacter)

/-- What was found, or a failure. -/
def found (failure : ε) : Option α → Except (Halt ε) α
  | some a => .ok a
  | none => .error (.failure failure)

lemma sum_of_lt {a b : Nat} (h : a + b < UInt64.size) :
    (sum a b : Except (Halt ε) Nat) = .ok (a + b) :=
  if_pos h

lemma difference_succ (a b : Nat) :
    (difference (a + b) b : Except (Halt ε) Nat) = .ok a := by
  rw [difference, if_pos (Nat.le_add_left b a), Nat.add_sub_cancel]

lemma lt_of_difference_one {n m : Nat} (h : (difference n 1 : Except (Halt ε) Nat) = .ok m) :
    m < n := by
  rw [difference] at h
  split at h
  · cases h
    omega
  · cases h

@[simp]
lemma ok_bind (a : α) (f : α → Except ε β) : (Except.ok a >>= f) = f a := rfl

@[simp]
lemma found_some (failure : ε) (a : α) : found failure (some a) = .ok a := rfl

lemma mapError_bind (g : ε → φ) (x : Except ε α) (f : α → Except ε β) :
    (x >>= f).mapError g = x.mapError g >>= fun a => (f a).mapError g := by
  cases x <;> rfl

/-! ### Lines of a document -/

/-- The lines from number `start` on and before number `stop`. Both bounds are counted from zero
then, with nothing before the first line, and moved into the document. -/
def between (d : Document) (start stop : Nat) : Except (Halt ε) (List String) := do
  let lo := min (start - 1) d.size
  let hi ← clamp (stop - 1) lo d.size
  range d.lines lo hi

/-- The bounds of a range of lines are in order and inside the document, whatever they are. -/
theorem between_eq (d : Document) (start stop : Nat) :
    (between d start stop : Except (Halt ε) (List String)) = .ok (d.between start stop) := by
  have hlo : min (start - 1) d.size ≤ d.size := Nat.min_le_right ..
  rw [between, clamp, if_pos hlo]
  show range d.lines _ _ = _
  rw [range, if_pos ⟨Nat.le_max_left .., by rw [← Document.size]; omega⟩]
  congr 1
  apply List.ext_getElem?
  intro i
  simp only [Document.between, Document.size, List.getElem?_drop, List.getElem?_take]
  grind

/-! ### Comments -/

/-- Search upwards from a line for comments; what was found below comes last. The number of the
line becomes smaller with every round. -/
def scanUp (d : Document) (n : Nat) (below : List String) : Except (Halt ε) (List String) :=
  match d.line? n with
  | none => .ok below
  | some l =>
    if mayPrecede l.toList then
      match _h : (difference n 1 : Except (Halt ε) Nat) with
      | .error halt => .error halt
      | .ok above =>
        scanUp d above <|
          if isComment l.toList then String.ofList (trim l.toList) :: below else below
    else
      .ok below
termination_by n
decreasing_by exact lt_of_difference_one _h

/-- The comment lines above a line. -/
def commentsAbove (d : Document) (line : Nat) : Except (Halt ε) (List String) :=
  scanUp d (line - 1) []

/-- A line that is there has a positive number, so that the search never counts below zero. -/
lemma scanUp_eq (d : Document) (n : Nat) (below : List String) :
    (scanUp d n below : Except (Halt ε) (List String)) =
      .ok (Source.commentsAbove d (n + 1) ++ below) := by
  induction n generalizing below with
  | zero =>
    rw [scanUp, Document.line?_zero]
    simp [Source.commentsAbove]
  | succ n ih =>
    rw [scanUp]
    cases hl : d.line? (n + 1) with
    | none =>
      have hsize : ¬ n + 2 - 1 ≤ d.size := by
        intro hle
        have hsome := (d.isSome_line?_iff (n + 1)).mpr ⟨by omega, by omega⟩
        rw [hl] at hsome
        cases hsome
      rw [Source.commentsAbove, if_neg hsize]
      rfl
    | some l =>
      rw [commentsAbove_succ hl]
      by_cases hp : mayPrecede l.toList = true
      · simp only [hp, if_true]
        split
        · next halt hd =>
          rw [difference_succ] at hd
          cases hd
        · next above hd =>
          rw [difference_succ] at hd
          cases hd
          rw [ih]
          split <;> simp
      · simp [hp]

theorem commentsAbove_eq (d : Document) (line : Nat) :
    (commentsAbove d line : Except (Halt ε) (List String)) = .ok (Source.commentsAbove d line) := by
  rw [commentsAbove, scanUp_eq, List.append_nil]
  cases line with
  | zero => simp [Source.commentsAbove]
  | succ n => rfl

/-! ### Bodies -/

/-- The lines without the closing brace on the last one, which is cut off where it stands. -/
def dropBrace : List Line → Except (Halt BodyFault) (List Line)
  | [] => .error (.failure .noClosingBrace)
  | line :: rest =>
    if trim line = ['}'] then
      .ok rest
    else do
      let offset ← found .noClosingBrace (lastOffsetOf? '}' line)
      let (before, _) ← cut offset line
      pure (before :: rest)

/-- The lines without the closing braces of that many scopes, and without what follows each. -/
def dropScopes (fold : FoldMarks) :
    Nat → List Line → Except (Halt BodyFault) (List Line × FoldMarks)
  | 0, lines => .ok (lines, fold)
  | scopes + 1, lines => do
    let (kept, fold) := dropNoise fold lines
    let rest ← dropBrace kept
    dropScopes fold scopes rest

/-- The text between the outer braces of the member that has these lines. Its own closing brace is
dropped first, then those of the scopes that end with it. -/
def bodyOfLines (lines : List Line) (scopes : Nat) : Except (Halt BodyFault) Body := do
  let joined := joinLines lines
  let offset ← found .noOpeningBrace (offsetOf? '{' joined)
  let (_, rest) ← cut (offset + 1) joined
  let (own, fold) ← dropScopes {} 1 (pieces rest).reverse
  let (kept, fold) ← dropScopes fold scopes own
  let blank := (kept.reverse.takeWhile isBlank).length
  let inner ← range kept.reverse blank kept.reverse.length
  pure { text := String.ofList (trimEnd (joinLines inner)), fold }

/-- Recover the body of a member from its lines in the document. -/
def recoverBody (d : Document) (extent : Extent) (member : String) :
    Except (Halt Failure) Body := do
  let lines ← between d extent.start extent.stop
  match bodyOfLines (lines.map String.toList) extent.trailingScopes with
  | .ok body => .ok body
  | .error (.trap t) => .error (.trap t)
  | .error (.failure .noOpeningBrace) =>
    .error (.failure (.body member extent.start .noOpeningBrace))
  | .error (.failure fault) => .error (.failure (.body member extent.endLine fault))

lemma dropBrace_eq (lines : List Line) :
    dropBrace lines = found .noClosingBrace (dropBrace? lines) := by
  cases lines with
  | nil => rfl
  | cons line rest =>
    rw [dropBrace, dropBrace?]
    by_cases hlone : trim line = ['}']
    · rw [if_pos hlone, if_pos hlone]
      rfl
    rw [if_neg hlone, if_neg hlone]
    by_cases hmem : '}' ∈ line
    · obtain ⟨after, before, hline, hafter⟩ :=
        List.eq_append_cons_of_mem (List.mem_reverse.mpr hmem)
      obtain rfl : line = before.reverse ++ '}' :: after.reverse := by
        simpa using congrArg List.reverse hline
      have hafter : '}' ∉ after.reverse := by simpa using hafter
      rw [lastOffsetOf?_append _ hafter, beforeLastBrace?_append hafter]
      show (cut _ _ >>= fun halves => pure (halves.1 :: rest)) = _
      rw [cut, cutAt?_append]
      rfl
    · rw [lastOffsetOf?_of_not_mem hmem, beforeLastBrace?_of_not_mem hmem]
      rfl

lemma dropScopes_eq (fold : FoldMarks) (scopes : Nat) (lines : List Line) :
    dropScopes fold scopes lines = found .noClosingBrace (dropScopes? fold scopes lines) := by
  induction scopes generalizing fold lines with
  | zero => rfl
  | succ scopes ih =>
    simp only [dropScopes, dropScopes?, dropBrace_eq]
    cases dropBrace? (dropNoise fold lines).1 with
    | none => rfl
    | some rest => exact ih _ rest

/-- The scopes that end with a member are dropped after its own closing brace. -/
lemma dropScopes?_succ (fold : FoldMarks) (scopes : Nat) (lines : List Line) :
    dropScopes? fold (scopes + 1) lines =
      (dropScopes? fold 1 lines).bind fun own => dropScopes? own.2 scopes own.1 := by
  simp only [dropScopes?]
  cases dropBrace? (dropNoise fold lines).1 <;> rfl

/-- The blank lines at the start of a body are lines of it. -/
lemma range_blank (lines : List Line) :
    (range lines (lines.takeWhile isBlank).length lines.length : Except (Halt ε) (List Line)) =
      .ok (lines.dropWhile isBlank) := by
  have hle := (List.takeWhile_prefix isBlank (l := lines)).length_le
  rw [range, if_pos ⟨hle, Nat.le_refl _⟩, List.take_length]
  congr 1
  nth_rewrite 2 [← List.takeWhile_append_dropWhile (p := isBlank) (l := lines)]
  rw [List.drop_left]

/-- The rest behind the first opening brace is cut off where a character begins. -/
lemma exists_cut_of_afterBrace? {s rest : List Char} (h : afterBrace? s = some rest) :
    ∃ n before, offsetOf? '{' s = some n ∧
      (cut (n + 1) s : Except (Halt BodyFault) _) = .ok (before, rest) := by
  obtain ⟨before, rfl, hbefore⟩ := exists_of_afterBrace? h
  refine ⟨_, before ++ ['{'], offsetOf?_append hbefore rest, ?_⟩
  rw [cut, cutAt?_succ rfl]

lemma not_mem_of_afterBrace? {s : List Char} (h : afterBrace? s = none) : '{' ∉ s := by
  intro hmem
  obtain ⟨before, rest, rfl, hbefore⟩ := List.eq_append_cons_of_mem hmem
  rw [afterBrace?_append_cons hbefore] at h
  cases h

/-- No cut of a body goes through a character, since braces are found where characters begin. -/
theorem bodyOfLines_eq (lines : List Line) (scopes : Nat) :
    bodyOfLines lines scopes = (Recovery.bodyOfLines lines scopes).mapError .failure := by
  rw [bodyOfLines, Recovery.bodyOfLines]
  cases hafter : afterBrace? (joinLines lines) with
  | none =>
    rw [offsetOf?_of_not_mem (not_mem_of_afterBrace? hafter)]
    rfl
  | some rest =>
    obtain ⟨n, before, hoffset, hcut⟩ := exists_cut_of_afterBrace? hafter
    simp only [hoffset, found_some, ok_bind, hcut, dropScopes_eq, dropScopes?_succ {} scopes]
    cases dropScopes? {} 1 (pieces rest).reverse with
    | none => rfl
    | some own =>
      simp only [found_some, ok_bind, Option.bind_some]
      cases dropScopes? own.2 scopes own.1 with
      | none => rfl
      | some kept =>
        simp only [found_some, ok_bind, range_blank]
        rfl

theorem recoverBody_eq (d : Document) (extent : Extent) (member : String) :
    recoverBody d extent member = (Recovery.recoverBody d extent member).mapError .failure := by
  simp only [recoverBody, Recovery.recoverBody, between_eq, ok_bind, bodyOfLines_eq]
  cases Recovery.bodyOfLines ((d.between extent.start extent.stop).map String.toList)
      extent.trailingScopes with
  | ok body => rfl
  | error fault => cases fault <;> rfl

/-! ### Accessors -/

/-- Split a text at the closing brace that ends the block it starts in. What is left to read starts
at the given offset, `depth` blocks are open there, the first one among them. -/
def splitBlock (inner : List Char) (offset depth : Nat) :
    List Char → Except (Halt ε) (Option (List Char × List Char))
  | [] => .ok none
  | c :: cs =>
    if c = '}' then do
      let depth ← difference depth 1
      if depth = 0 then
        let (block, _) ← cut offset inner
        let (_, rest) ← cut (offset + 1) inner
        pure (some (block, rest))
      else
        splitBlock inner (offset + c.utf8Size) depth cs
    else if c = '{' then
      splitBlock inner (offset + c.utf8Size) (depth + 1) cs
    else
      splitBlock inner (offset + c.utf8Size) depth cs

/-- The body of an accessor from what follows its keyword, and the text after its clause. -/
def accessorBody (keyword : String) (text : List Char) :
    Except (Halt BodyFault) (List Char × List Char) :=
  match trimStart text with
  | ';' :: rest => .ok ([], rest)
  | '{' :: inner => do
    let (block, rest) ← splitBlock inner 0 1 inner >>= found (.unendedAccessor keyword)
    pure (trim block, rest)
  | _ => .error (.failure (.noAccessorBody keyword))

/-- The accessors of a property from the text between its braces. -/
def accessorsOf (text : List Char) : Except (Halt BodyFault) Accessors :=
  match afterKeyword? "get".toList (trimStart text) with
  | some afterGet => do
    let (get, rest) ← accessorBody "get" afterGet
    match afterKeyword? "set".toList (trimStart rest) with
    | some afterSet => do
      let (set, _) ← accessorBody "set" afterSet
      pure { get := some (String.ofList get), set := some (String.ofList set) }
    | none => pure { get := some (String.ofList get) }
  | none =>
    match afterKeyword? "set".toList (trimStart text) with
    | some afterSet => do
      let (set, _) ← accessorBody "set" afterSet
      pure { set := some (String.ofList set) }
    | none => pure {}

/-- Split the text between the braces of a property; a fault is reported on the given line. -/
def recoverAccessors (text : String) (member : String) (line : Nat) :
    Except (Halt Failure) Accessors :=
  (accessorsOf text.toList).mapError (Halt.map (.body member line))

/-- The scanner stands behind what it has read, inside at least one block: so there is one to close,
and both cuts are between characters. -/
lemma splitBlock_eq (depth : Nat) (seen s : List Char) :
    (splitBlock (seen.reverse ++ s) (String.utf8Len seen.reverse) (depth + 1) s :
      Except (Halt ε) _) = .ok (splitBlock? depth seen s) := by
  induction s generalizing depth seen with
  | nil => rfl
  | cons c cs ih =>
    have hnext (depth : Nat) := ih depth (c :: seen)
    rw [List.reverse_cons, List.append_assoc, List.singleton_append, String.utf8Len_append,
      String.utf8Len_cons, String.utf8Len_nil, Nat.zero_add] at hnext
    unfold splitBlock splitBlock?
    by_cases hclose : c = '}'
    · subst hclose
      simp only [if_true, difference_succ, ok_bind]
      cases depth with
      | zero =>
        rw [if_pos rfl, cut, cutAt?_append, cut, cutAt?_succ rfl]
        rfl
      | succ depth =>
        rw [if_neg (Nat.succ_ne_zero depth)]
        exact hnext depth
    · rw [if_neg hclose, if_neg hclose]
      split
      · exact hnext (depth + 1)
      · exact hnext depth

lemma accessorBody_eq (keyword : String) (text : List Char) :
    accessorBody keyword text = (Recovery.accessorBody keyword text).mapError .failure := by
  rw [accessorBody, Recovery.accessorBody]
  cases trimStart text with
  | nil => rfl
  | cons c inner =>
    by_cases hsemicolon : c = ';'
    · subst hsemicolon
      rfl
    by_cases hbrace : c = '{'
    · subst hbrace
      have hsplit : (splitBlock inner 0 1 inner : Except (Halt BodyFault) _) = _ :=
        splitBlock_eq 0 [] inner
      simp only [hsplit, ok_bind]
      cases splitBlock? 0 [] inner <;> rfl
    · simp [hsemicolon, hbrace, Except.mapError]

lemma accessorsOf_eq (text : List Char) :
    accessorsOf text = (Recovery.accessorsOf text).mapError .failure := by
  rw [accessorsOf, Recovery.accessorsOf]
  cases afterKeyword? "get".toList (trimStart text) with
  | some afterGet =>
    simp only [accessorBody_eq, mapError_bind]
    congr 1
    funext block
    obtain ⟨get, rest⟩ := block
    dsimp only
    cases afterKeyword? "set".toList (trimStart rest) with
    | some afterSet =>
      simp only [mapError_bind]
      rfl
    | none => rfl
  | none =>
    simp only
    cases afterKeyword? "set".toList (trimStart text) with
    | some afterSet =>
      simp only [accessorBody_eq, mapError_bind]
      rfl
    | none => rfl

theorem recoverAccessors_eq (text member : String) (line : Nat) :
    recoverAccessors text member line =
      (Recovery.recoverAccessors text member line).mapError .failure := by
  rw [recoverAccessors, Recovery.recoverAccessors, accessorsOf_eq]
  cases Recovery.accessorsOf text.toList <;> rfl

/-! ### Members -/

/-- Recover the text of a member that is not a type. -/
def recoverContent (d : Document) (extent : Extent) (head : MemberHead) :
    Content → Except (Halt Failure) (MemberHead × Content)
  | .field typeName _ => do
    let comments ← commentsAbove d extent.start
    pure (head, .field typeName comments)
  | .method returnType signature _ =>
    if head.isAbstract then
      .ok (head, .method returnType signature "")
    else do
      let body ← recoverBody d extent head.name
      pure ({ head with fold := body.fold }, .method returnType signature body.text)
  | .constructor signature _ =>
    if head.isAbstract then
      .ok (head, .constructor signature "")
    else do
      let body ← recoverBody d extent head.name
      pure ({ head with fold := body.fold }, .constructor signature body.text)
  | .property typeName _ =>
    if head.isAbstract then
      .ok (head, .property typeName {})
    else do
      let body ← recoverBody d extent head.name
      let accessors ← recoverAccessors body.text head.name extent.start
      pure ({ head with fold := body.fold }, .property typeName accessors)

/-- The text of a member that is no type is recovered without a trap, whatever its extent. -/
theorem recoverContent_eq (d : Document) (extent : Extent) (head : MemberHead)
    (content : Content) :
    recoverContent d extent head content =
      (Recovery.recoverContent d extent head content).mapError .failure := by
  cases content with
  | field typeName comments =>
    rw [recoverContent, commentsAbove_eq]
    rfl
  | method returnType signature body =>
    rw [recoverContent, Recovery.recoverContent, recoverBody_eq]
    split
    · rfl
    · rw [mapError_bind]
      rfl
  | constructor signature body =>
    rw [recoverContent, Recovery.recoverContent, recoverBody_eq]
    split
    · rfl
    · rw [mapError_bind]
      rfl
  | property typeName accessors =>
    rw [recoverContent, Recovery.recoverContent, recoverBody_eq]
    split
    · rfl
    · simp only [recoverAccessors_eq, mapError_bind]
      rfl

end Graft.Machine
