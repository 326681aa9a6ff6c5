import AccessChecks.AccessPath
import Mathlib.Data.List.Forall2
import Mathlib.Data.Option.Defs

/-!
# Stored paths

## Nodes

A path can be stored as a label, the place of its last node and the count of its nodes.  A
node has a segment and the place of the node in front of it.  Paths that go on from the
same path share its nodes, and nodes are only ever added.

## Operations

Any path built so far can be operated on again, and each operation builds one more.  An
index is a machine word, and what comes behind the greatest one depends on the build: with
overflow checks the operation fails, and without them it starts again at the first segment.

## Pairs

A stored path denotes the pair of its label and of the segments met on the way to its last
node.  All questions about the path have the answers that the pair gives.

## Runs

Each operation builds a path that denotes what the operation gives for pairs.  The pairs of
earlier paths stay as they are.
-/

namespace AccessChecks

/-!
## Nodes
-/

structure PathNode where
  segment : Segment
  parent : Option Nat

abbrev PathNodes : Type :=
  List PathNode

/-- The segments from a node up to the root.  There are none if a place is empty or the
nodes lead in a circle. -/
def PathNodes.climb (nodes : PathNodes) (tail : Option Nat) : Option (List Segment) :=
  match tail with
  | none => some []
  | some place => do
      let node ← nodes[place]?
      return node.segment :: (← nodes |>.climb node.parent)
partial_fixpoint

structure StoredPath where
  root : String
  tail : Option Nat
  length : Nat

namespace StoredPath

def segments? (nodes : PathNodes) (p : StoredPath) : Option (List Segment) :=
  (nodes.climb p.tail).map List.reverse

def isRoot (p : StoredPath) : Bool :=
  p.length == 0

def last? (nodes : PathNodes) (p : StoredPath) : Option Segment := do
  let place ← p.tail
  return (← nodes[place]?).segment

def leafType (nodes : PathNodes) (p : StoredPath) : Option FieldType :=
  (p.last? nodes).map Segment.valueType

def endsAtIdKind (nodes : PathNodes) (p : StoredPath) : Bool :=
  match p.leafType nodes with
  | some (.single kind) => kind.isId
  | some (.list _) | some (.map _ _) | none => false

def crossesCollection? (nodes : PathNodes) (p : StoredPath) : Option Bool :=
  (p.segments? nodes).map fun segments => segments.any Segment.crossesCollection

def collectionDepth? (nodes : PathNodes) (p : StoredPath) : Option Nat :=
  (p.segments? nodes).map fun segments =>
    (segments.filter Segment.crossesCollection).length

def render? (nodes : PathNodes) (p : StoredPath) : Option String :=
  (p.segments? nodes).map fun segments =>
    segments.foldl (fun text segment => text ++ "." ++ segment.name) p.root

def equals? (nodes : PathNodes) (p q : StoredPath) : Option Bool :=
  if p.root == q.root then do
    return (← p.segments? nodes) == (← q.segments? nodes)
  else
    some false

/-!
## Operations
-/

def start (label : String) : StoredPath :=
  ⟨label, none, 0⟩

def link (nodes : PathNodes) (p : StoredPath) (segment : Segment) :
    PathNodes × StoredPath :=
  (nodes ++ [⟨segment, p.tail⟩], ⟨p.root, some nodes.length, p.length + 1⟩)

def linkAll (nodes : PathNodes) (p : StoredPath) (segments : List Segment) :
    PathNodes × StoredPath :=
  segments.foldl (fun built segment => link built.1 built.2 segment) (nodes, p)

theorem linkAll_cons (nodes : PathNodes) (p : StoredPath) (segment : Segment)
    (rest : List Segment) :
    p.linkAll nodes (segment :: rest) =
      (p.link nodes segment).2.linkAll (p.link nodes segment).1 rest :=
  rfl

end StoredPath

structure PathStore where
  nodes : PathNodes := []
  paths : List StoredPath := []

inductive PathOperation where
  | root (label : String)
  | append (path : Nat) (segment : Segment)
  | rewriteRoot (path : Nat) (label : String)
  | after (path : Nat) (index : USize) (label : String)

/-- The segments behind an index.  Nothing is behind the greatest one: a build with
overflow checks fails there, and one without takes all segments. -/
def behind? (checked : Bool) (index : USize) (segments : List Segment) :
    Option (List Segment) :=
  if index.toNat + 1 < USize.size then some (segments.drop (index.toNat + 1))
  else if checked then none
  else some segments

namespace PathOperation

def result? (checked : Bool) (pairs : List AccessPath) : PathOperation → Option AccessPath
  | root label => return ⟨label, []⟩
  | append path segment => return (← pairs[path]?).append segment
  | rewriteRoot path label => return (← pairs[path]?).rewriteRoot label
  | after path index label => do
      let a ← pairs[path]?
      return ⟨label, ← behind? checked index a.segments⟩

def build? (checked : Bool) (store : PathStore) :
    PathOperation → Option (PathNodes × StoredPath)
  | root label => return (store.nodes, StoredPath.start label)
  | append path segment => return (← store.paths[path]?).link store.nodes segment
  | rewriteRoot path label => return (store.nodes, { (← store.paths[path]?) with root := label })
  | after path index label => do
      let segments ← (← store.paths[path]?).segments? store.nodes
      let next ← AccessPath.nextIndex? checked index
      return StoredPath.linkAll store.nodes (.start label) (segments.drop next.toNat)

def extend (checked : Bool) (pairs : List AccessPath) (operation : PathOperation) :
    Option (List AccessPath) := do
  return pairs ++ [← operation.result? checked pairs]

def perform (checked : Bool) (store : PathStore) (operation : PathOperation) :
    Option PathStore := do
  let (nodes, path) ← operation.build? checked store
  return ⟨nodes, store.paths ++ [path]⟩

/-- The path to build on is there, and its index has another one behind it if that is
checked. -/
def IsPossible (checked : Bool) (built : Nat) : PathOperation → Prop
  | root _ => True
  | append path _ | rewriteRoot path _ => path < built
  | after path index _ => path < built ∧ (checked = true → index.toNat + 1 < USize.size)

end PathOperation

/-!
## Pairs
-/

namespace StoredPath

/-- The segments on the way to a place, from the root outwards. -/
inductive Chain (nodes : PathNodes) : Option Nat → List Segment → Prop where
  | root : Chain nodes none []
  | node {place : Nat} {node : PathNode} {front : List Segment}
      (found : nodes[place]? = some node) (parent : Chain nodes node.parent front) :
      Chain nodes (some place) (front ++ [node.segment])

namespace Chain

variable {nodes grown : PathNodes} {tail : Option Nat} {segments : List Segment}

theorem mono (h : Chain nodes tail segments) (kept : nodes <+: grown) :
    Chain grown tail segments := by
  induction h with
  | root => exact root
  | node found parent ih =>
    obtain ⟨inFront, rfl⟩ := List.getElem?_eq_some_iff.mp found
    exact node (List.prefix_iff_getElem?.mp kept _ inFront) ih

theorem climb_eq (h : Chain nodes tail segments) :
    nodes.climb tail = some segments.reverse := by
  induction h with
  | root => rw [PathNodes.climb, List.reverse_nil]
  | node found parent ih =>
    rw [PathNodes.climb]
    simp [found, ih]

end Chain

/-- The segments up to the last node are those of the pair, and their count is right. -/
structure Denotes (nodes : PathNodes) (p : StoredPath) (a : AccessPath) : Prop where
  root : p.root = a.root
  chain : Chain nodes p.tail a.segments
  length : p.length = a.length

namespace Denotes

variable {nodes grown : PathNodes} {p q : StoredPath} {a b : AccessPath}

theorem mono (h : Denotes nodes p a) (kept : nodes <+: grown) : Denotes grown p a :=
  ⟨h.root, h.chain.mono kept, h.length⟩

theorem start (nodes : PathNodes) (label : String) :
    Denotes nodes (start label) ⟨label, []⟩ :=
  ⟨rfl, .root, rfl⟩

theorem rewriteRoot (h : Denotes nodes p a) (label : String) :
    Denotes nodes { p with root := label } (a.rewriteRoot label) :=
  ⟨rfl, h.chain, h.length⟩

theorem link (h : Denotes nodes p a) (segment : Segment) :
    Denotes (p.link nodes segment).1 (p.link nodes segment).2 (a.append segment) where
  root := h.root
  chain := by
    -- The new node has the place behind all earlier ones.
    have found : (nodes ++ [PathNode.mk segment p.tail])[nodes.length]? =
        some ⟨segment, p.tail⟩ := by simp
    exact .node found (h.chain.mono (List.prefix_append _ _))
  length := by simp [StoredPath.link, AccessPath.append, AccessPath.length, h.length]

theorem segments?_eq (h : Denotes nodes p a) : p.segments? nodes = some a.segments := by
  simp [segments?, h.chain.climb_eq]

theorem last?_eq (h : Denotes nodes p a) : p.last? nodes = a.last? := by
  obtain ⟨root, tail, length⟩ := p
  obtain ⟨label, segments⟩ := a
  obtain ⟨-, chain, -⟩ := h
  cases chain with
  | root => rfl
  | node found parent => simp [last?, AccessPath.last?, found]

theorem leafType_eq (h : Denotes nodes p a) : p.leafType nodes = a.leafType := by
  rw [leafType, AccessPath.leafType, h.last?_eq]

theorem linkAll (h : Denotes nodes p a) (segments : List Segment) :
    nodes <+: (p.linkAll nodes segments).1 ∧
      Denotes (p.linkAll nodes segments).1 (p.linkAll nodes segments).2
        ⟨a.root, a.segments ++ segments⟩ := by
  induction segments generalizing nodes p a with
  | nil => exact ⟨List.prefix_rfl, by simpa [StoredPath.linkAll] using h⟩
  | cons segment rest ih =>
    obtain ⟨kept, denotes⟩ := ih (h.link segment)
    rw [linkAll_cons]
    refine ⟨(List.prefix_append _ _).trans kept, ?_⟩
    simpa [AccessPath.append] using denotes

end Denotes

/-- All questions about a path have the answers that the pair gives. -/
structure AgreesWith (nodes : PathNodes) (p : StoredPath) (a : AccessPath) : Prop where
  root : p.root = a.root
  segments : p.segments? nodes = some a.segments
  length : p.length = a.length
  isRoot : p.isRoot = a.isRoot
  last : p.last? nodes = a.last?
  leafType : p.leafType nodes = a.leafType
  endsAtIdKind : p.endsAtIdKind nodes = a.endsAtIdKind
  crossesCollection : p.crossesCollection? nodes = some a.crossesCollection
  collectionDepth : p.collectionDepth? nodes = some a.collectionDepth
  render : p.render? nodes = some a.render

variable {nodes : PathNodes} {p q : StoredPath} {a b : AccessPath}

theorem foldl_dot_name (text : String) (segments : List Segment) :
    segments.foldl (fun text segment => text ++ "." ++ segment.name) text =
      ".".intercalate (text :: segments.map Segment.name) := by
  induction segments generalizing text with
  | nil => simp
  | cons segment rest ih => exact ih _

theorem Denotes.agreesWith (h : Denotes nodes p a) : AgreesWith nodes p a where
  root := h.root
  segments := h.segments?_eq
  length := h.length
  isRoot := by
    rw [StoredPath.isRoot, AccessPath.isRoot, h.length, AccessPath.length]
    cases a.segments <;> rfl
  last := h.last?_eq
  leafType := h.leafType_eq
  endsAtIdKind := by
    rw [StoredPath.endsAtIdKind, h.leafType_eq]
    rfl
  crossesCollection := by
    simp [crossesCollection?, AccessPath.crossesCollection, h.segments?_eq]
  collectionDepth := by
    simp [collectionDepth?, AccessPath.collectionDepth, h.segments?_eq,
      List.countP_eq_length_filter]
  render := by
    simp [render?, AccessPath.render, h.segments?_eq, h.root, foldl_dot_name]

theorem Denotes.equals?_eq (hp : Denotes nodes p a) (hq : Denotes nodes q b) :
    p.equals? nodes q = some (decide (a = b)) := by
  obtain ⟨label, segments⟩ := a
  obtain ⟨other, others⟩ := b
  by_cases same : label = other <;>
    simp [equals?, hp.segments?_eq, hq.segments?_eq, hp.root, hq.root, same,
      beq_eq_decide]

end StoredPath

/-!
## Runs
-/

theorem rel_bind {α β γ δ : Type} {r : α → β → Prop} {s : γ → δ → Prop} {x : Option α}
    {y : Option β} {f : α → Option γ} {g : β → Option δ} (h : Option.Rel r x y)
    (step : ∀ {a b}, r a b → Option.Rel s (f a) (g b)) :
    Option.Rel s (x.bind f) (y.bind g) := by
  cases h with
  | none => exact .none
  | some related => exact step related

theorem rel_imp {α β : Type} {r s : α → β → Prop} {x : Option α} {y : Option β}
    (h : Option.Rel r x y) (step : ∀ {a b}, r a b → s a b) : Option.Rel s x y := by
  cases h with
  | none => exact .none
  | some related => exact .some (step related)

theorem exists_of_rel {α β : Type} {r : α → β → Prop} {x : Option α} {b : β}
    (h : Option.Rel r x (some b)) : ∃ a, x = some a ∧ r a b := by
  cases h with
  | some related => exact ⟨_, rfl, related⟩

theorem eq_none_of_rel {α β : Type} {r : α → β → Prop} {x : Option α}
    (h : Option.Rel r x (none : Option β)) : x = none := by
  cases h with
  | none => rfl

namespace PathStore

def Denotes (store : PathStore) (pairs : List AccessPath) : Prop :=
  List.Forall₂ (StoredPath.Denotes store.nodes) store.paths pairs

structure AgreesWith (store : PathStore) (pairs : List AccessPath) : Prop where
  each : List.Forall₂ (StoredPath.AgreesWith store.nodes) store.paths pairs
  equals : ∀ {p q : StoredPath} {a b : AccessPath}, (p, a) ∈ store.paths.zip pairs →
    (q, b) ∈ store.paths.zip pairs → p.equals? store.nodes q = some (decide (a = b))

/-- Paths and pairs have come to denote each other, and those there were before are still
in front. -/
structure Grows (store : PathStore) (pairs : List AccessPath) (grown : PathStore)
    (longer : List AccessPath) : Prop where
  denotes : grown.Denotes longer
  paths : store.paths <+: grown.paths
  pairs : pairs <+: longer

variable {store grown : PathStore} {pairs longer : List AccessPath}

theorem Grows.trans {more : PathStore} {longest : List AccessPath}
    (first : store.Grows pairs grown longer) (second : grown.Grows longer more longest) :
    store.Grows pairs more longest :=
  ⟨second.denotes, first.paths.trans second.paths, first.pairs.trans second.pairs⟩

theorem Denotes.agreesWith (h : store.Denotes pairs) : store.AgreesWith pairs where
  each := h.imp fun _ _ denotes => denotes.agreesWith
  equals := by
    intro p q a b hp hq
    exact (List.forall₂_iff_zip.mp h).2 hp |>.equals?_eq ((List.forall₂_iff_zip.mp h).2 hq)

theorem Denotes.getElem?_rel (h : store.Denotes pairs) (place : Nat) :
    Option.Rel (StoredPath.Denotes store.nodes) store.paths[place]? pairs[place]? := by
  have sameLength : store.paths.length = pairs.length := h.length_eq
  by_cases built : place < store.paths.length
  · have paired : place < pairs.length := sameLength ▸ built
    rw [List.getElem?_eq_getElem built, List.getElem?_eq_getElem paired]
    exact .some (h.get built paired)
  · rw [List.getElem?_eq_none (by omega), List.getElem?_eq_none (by omega)]
    exact .none

theorem Denotes.add (h : store.Denotes pairs) {nodes : PathNodes} {p : StoredPath}
    {a : AccessPath} (kept : store.nodes <+: nodes) (denotes : p.Denotes nodes a) :
    Denotes ⟨nodes, store.paths ++ [p]⟩ (pairs ++ [a]) :=
  List.rel_append (h.imp fun _ _ earlier => earlier.mono kept) (.cons denotes .nil)

end PathStore

namespace AccessPath

variable {index : USize}

theorem toNat_add_one (h : index.toNat + 1 < USize.size) :
    (index + 1).toNat = index.toNat + 1 := by
  have one : (1 : USize).toNat = 1 := by simp
  rw [USize.toNat_add, one]
  exact Nat.mod_eq_of_lt h

theorem add_one_eq_zero (h : ¬ index.toNat + 1 < USize.size) : index + 1 = 0 := by
  have one : (1 : USize).toNat = 1 := by simp
  have greatest : index.toNat + 1 = USize.size := by
    have := index.toNat_lt_size
    omega
  apply USize.toNat_inj.mp
  rw [USize.toNat_add, one, greatest]
  exact Nat.mod_self _

theorem drop_nextIndex? (checked : Bool) (index : USize) (segments : List Segment) :
    ((nextIndex? checked index).map fun next => segments.drop next.toNat) =
      behind? checked index segments := by
  rw [nextIndex?, behind?]
  by_cases inside : index.toNat + 1 < USize.size
  · have more : index + 1 ≠ 0 := by
      intro zero
      have := toNat_add_one inside
      rw [zero] at this
      simp at this
    simp [inside, more, toNat_add_one inside]
  · simp only [inside, add_one_eq_zero inside]
    cases checked <;> simp

theorem after?_eq (checked : Bool) (p : AccessPath) (index : USize) (label : String) :
    p.after? checked index label = (behind? checked index p.segments).map (⟨label, ·⟩) := by
  rw [← drop_nextIndex?, after?]
  cases nextIndex? checked index <;> rfl

end AccessPath

namespace PathOperation

variable {checked : Bool} {store : PathStore} {pairs : List AccessPath}

theorem isSome_extend_iff (operation : PathOperation) :
    (operation.extend checked pairs).isSome ↔
      operation.IsPossible checked pairs.length := by
  cases operation with
  | root label => simp [extend, result?, IsPossible]
  | append path | rewriteRoot path =>
    by_cases built : path < pairs.length <;> simp [extend, result?, IsPossible, built]
  | after path index =>
    by_cases built : path < pairs.length
    · by_cases inside : index.toNat + 1 < USize.size <;> cases checked <;>
        simp [extend, result?, IsPossible, behind?, built, inside]
    · simp [extend, result?, IsPossible, built]

theorem build?_rel (h : store.Denotes pairs) (operation : PathOperation) :
    Option.Rel (fun built a => store.nodes <+: built.1 ∧ built.2.Denotes built.1 a)
      (operation.build? checked store) (operation.result? checked pairs) := by
  cases operation with
  | root label => exact .some ⟨List.prefix_rfl, .start store.nodes label⟩
  | append path segment =>
    exact rel_bind (h.getElem?_rel path) fun denotes =>
      .some ⟨List.prefix_append _ _, denotes.link segment⟩
  | rewriteRoot path label =>
    exact rel_bind (h.getElem?_rel path) fun denotes =>
      .some ⟨List.prefix_rfl, denotes.rewriteRoot label⟩
  | after path index label =>
    refine rel_bind (h.getElem?_rel path) fun {p a} denotes => ?_
    rw [denotes.segments?_eq, ← AccessPath.drop_nextIndex?]
    cases AccessPath.nextIndex? checked index with
    | none => exact .none
    | some next =>
      -- The rest of the path starts anew at a root, which has no nodes.
      exact .some ((StoredPath.Denotes.start store.nodes label).linkAll
        (a.segments.drop next.toNat))

theorem perform_rel (h : store.Denotes pairs) (operation : PathOperation) :
    Option.Rel (store.Grows pairs) (operation.perform checked store)
      (operation.extend checked pairs) :=
  rel_bind (operation.build?_rel h) fun ⟨kept, denotes⟩ =>
    .some ⟨h.add kept denotes, List.prefix_append _ _, List.prefix_append _ _⟩

theorem isSome_perform_iff (h : store.Denotes pairs) (operation : PathOperation) :
    (operation.perform checked store).isSome ↔
      operation.IsPossible checked pairs.length := by
  have related : Option.Rel _ (operation.perform checked store) _ := operation.perform_rel h
  rw [← isSome_extend_iff]
  generalize operation.perform checked store = built at related
  generalize operation.extend checked pairs = extended at related
  cases related with
  | none => exact Iff.rfl
  | some grows => exact iff_of_true rfl rfl

theorem foldlM_rel (h : store.Denotes pairs) (operations : List PathOperation) :
    Option.Rel (store.Grows pairs) (operations.foldlM (perform checked) store)
      (operations.foldlM (extend checked) pairs) := by
  induction operations generalizing store pairs with
  | nil => exact .some ⟨h, List.prefix_rfl, List.prefix_rfl⟩
  | cons operation rest ih =>
    rw [List.foldlM_cons, List.foldlM_cons]
    refine rel_bind (operation.perform_rel h) fun first => ?_
    exact rel_imp (ih first.denotes) first.trans

/-- After any operations, in which any earlier path may be built on, the stored paths agree
with the pairs, and further operations leave both as they are.  Each operation goes through
if the path to build on is there, except for a checked index behind the greatest one. -/
theorem stored_paths_denote_pairs (checked : Bool) (earlier later : List PathOperation) :
    Option.Rel
      (fun store pairs => store.AgreesWith pairs ∧
        (∀ operation : PathOperation, (operation.perform checked store).isSome ↔
          operation.IsPossible checked pairs.length) ∧
        Option.Rel
          (fun grown longer => grown.AgreesWith longer ∧ store.paths <+: grown.paths ∧
            pairs <+: longer)
          (later.foldlM (perform checked) store) (later.foldlM (extend checked) pairs))
      (earlier.foldlM (perform checked) {}) (earlier.foldlM (extend checked) []) := by
  have none : PathStore.Denotes {} [] := .nil
  refine rel_imp (foldlM_rel none earlier) fun first => ?_
  refine ⟨first.denotes.agreesWith, isSome_perform_iff first.denotes, ?_⟩
  refine rel_imp (foldlM_rel first.denotes later) fun second => ?_
  exact ⟨second.denotes.agreesWith, second.paths, second.pairs⟩

theorem toNat_greatest_add_one : (-1 : USize).toNat + 1 = USize.size := by
  have one : (1 : USize).toNat = 1 := by simp
  have large := USize.le_size
  rw [USize.toNat_neg, one, Nat.mod_eq_of_lt (by omega)]
  omega

theorem behind?_greatest (checked : Bool) (segments : List Segment) :
    behind? checked (-1) segments = if checked then none else some segments := by
  rw [behind?, toNat_greatest_add_one, if_neg (Nat.lt_irrefl _)]

/-- Nothing is behind the greatest index of a path with one segment.  Still the whole path
is built there, or none in a build with checks. -/
theorem after_greatest_index :
    let id := Segment.traverse ⟨"id", .single (.scalar .string), false, false, {}⟩
    let operations := [root "request", append 0 id, after 1 (-1) "v"]
    1 ≤ (-1 : USize).toNat ∧
      (∃ store, operations.foldlM (perform false) {} = some store ∧
        store.AgreesWith [⟨"request", []⟩, ⟨"request", [id]⟩, ⟨"v", [id]⟩]) ∧
      operations.foldlM (perform true) {} = none := by
  intro id operations
  have start : PathStore.Denotes {} [] := .nil
  have large := USize.le_size
  have greatest := toNat_greatest_add_one
  have related (checked : Bool) : Option.Rel (PathStore.Grows {} [])
      (operations.foldlM (perform checked) {}) (operations.foldlM (extend checked) []) :=
    foldlM_rel start operations
  have wraps : operations.foldlM (extend false) [] =
      some [⟨"request", []⟩, ⟨"request", [id]⟩, ⟨"v", [id]⟩] := by
    simp [operations, extend, result?, behind?_greatest, AccessPath.append]
  have fails : operations.foldlM (extend true) [] = none := by
    simp [operations, extend, result?, behind?_greatest]
  refine ⟨by omega, ?_, eq_none_of_rel (fails ▸ related true)⟩
  obtain ⟨store, built, grows⟩ := exists_of_rel (wraps ▸ related false)
  exact ⟨store, built, grows.denotes.agreesWith⟩

example (a b c : Segment) :
    ([root "request", append 0 a, append 1 b, append 1 c].foldlM (perform true) {}).map
      PathStore.nodes = some [⟨a, none⟩, ⟨b, some 0⟩, ⟨c, some 0⟩] :=
  rfl

end PathOperation

end AccessChecks
