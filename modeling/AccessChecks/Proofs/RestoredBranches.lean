import AccessChecks.Proofs.BranchStack
import AccessChecks.Proofs.DiscoveredPaths
import AccessChecks.Proofs.KeyOrder
import AccessChecks.Proofs.ResourceReachability

/-!
# Restored branches

## Fresh calls

A call is fresh if it is on a registered message that is not on its branch, and the branch
has registered messages only, each once.  The calls made in a fresh call are fresh, and no
branch is longer than the list of registered messages.

## Lengths of paths

A route on which no message comes twice has fewer steps than there are messages.  So have
the paths to resources, and the paths behind them have one segment more at most.
-/

namespace AccessChecks

open Schema RouteStep

namespace Schema

variable {s : Schema}

/-!
## Fresh calls
-/

theorem length_le_of_nodup {names : List String} (hnodup : names.Nodup)
    (registered : ∀ name ∈ names, ∃ m, s.Registers m ∧ m.fullName = name) :
    names.length ≤ s.messages.length := by
  have hsubset : names ⊆ s.messages.map Message.fullName := by
    intro name hname
    rcases registered name hname with ⟨m, hm, rfl⟩
    exact List.mem_map_of_mem (mem_of_message? hm)
  have hlength := (List.subperm_of_subset hnodup hsubset).length_le
  rwa [List.length_map] at hlength

end Schema

namespace SearchCall

/-- The call is on a registered message off its branch, and the branch has registered
messages only, each once. -/
structure IsFresh (s : Schema) (c : SearchCall) : Prop where
  registered : s.Registers c.message
  new : c.message.fullName ∉ c.branch
  nodup : c.branch.Nodup
  known : ∀ name ∈ c.branch, ∃ m, s.Registers m ∧ m.fullName = name

variable {s : Schema} {c : SearchCall}

theorem isFresh_root {m : Message} (registered : s.Registers m) : IsFresh s ⟨m, []⟩ :=
  { registered := registered
    new := List.not_mem_nil
    nodup := List.nodup_nil
    known := fun _ hname => absurd hname List.not_mem_nil }

namespace IsFresh

variable (h : c.IsFresh s)
include h

theorem nodup_inside : c.inside.Nodup :=
  List.nodup_cons.mpr ⟨h.new, h.nodup⟩

theorem known_inside : ∀ name ∈ c.inside, ∃ m, s.Registers m ∧ m.fullName = name := by
  rw [inside, List.forall_mem_cons]
  exact ⟨⟨c.message, h.registered, rfl⟩, h.known⟩

theorem length_inside_le : c.inside.length ≤ s.messages.length :=
  length_le_of_nodup h.nodup_inside h.known_inside

theorem enter {target : MessageRef} {next : Message}
    (entered : s.enter c.inside target = some next) : IsFresh s ⟨next, c.inside⟩ := by
  rcases enter_eq_some_iff.mp entered with ⟨found, hnew⟩
  exact
    { registered := registers_of_message? found
      new := hnew
      nodup := h.nodup_inside
      known := h.known_inside }

end IsFresh

/-- The second call keeps to what the branch is for, if the first one does: it is on a
registered message off the branch, and with this message the branch has no message twice
and no more messages than are registered. -/
def Keeps (s : Schema) (c d : SearchCall) : Prop :=
  c.IsFresh s → d.IsFresh s ∧ d.inside.Nodup ∧ d.inside.length ≤ s.messages.length

theorem descends_keeps (s : Schema) (c : SearchCall) :
    Searching.Descends s (c.Keeps s) := by
  intro d target next hd entered hc
  have hfresh := (hd hc).1.enter entered
  exact ⟨hfresh, hfresh.nodup_inside, hfresh.length_inside_le⟩

theorem keeps_self (s : Schema) (c : SearchCall) : c.Keeps s c :=
  fun h => ⟨h, h.nodup_inside, h.length_inside_le⟩

end SearchCall

/-!
## Lengths of paths
-/

theorem RouteStep.arrival_mem_stops (start : Message) (steps : List RouteStep) :
    arrival start steps ∈ stops start steps := by
  induction steps generalizing start with
  | nil => exact List.mem_cons_self
  | cons step rest ih => exact List.mem_cons_of_mem start (ih step.message)

namespace Schema

variable {s : Schema} {target : Field → Option MessageRef} {m : Message}
  {steps : List RouteStep}

theorem FreshRoute.registers_stops (registered : s.Registers m)
    (h : FreshRoute s target [m.fullName] m.fields steps) :
    ∀ n ∈ stops m steps, s.Registers n := by
  rw [stops, List.forall_mem_cons]
  refine ⟨registered, ?_⟩
  intro n hn
  rcases List.mem_map.mp hn with ⟨step, hstep, rfl⟩
  exact h.registers step hstep

theorem FreshRoute.length_lt (registered : s.Registers m)
    (h : FreshRoute s target [m.fullName] m.fields steps) :
    steps.length < s.messages.length := by
  have hknown : ∀ name ∈ (stops m steps).map Message.fullName,
      ∃ n, s.Registers n ∧ n.fullName = name := by
    intro name hname
    rcases List.mem_map.mp hname with ⟨n, hn, rfl⟩
    exact ⟨n, h.registers_stops registered n hn, rfl⟩
  have hlength := length_le_of_nodup h.nodup_stops hknown
  rwa [List.length_map, stops, List.length_cons, List.length_map] at hlength

theorem FreshRoute.registers_arrival (registered : s.Registers m)
    (h : FreshRoute s target [m.fullName] m.fields steps) :
    s.Registers (arrival m steps) :=
  h.registers_stops registered _ (arrival_mem_stops m steps)

end Schema

/-- The paths of a resource in a schema of so many messages. -/
structure Resource.PathsWithin (r : Resource) (count : Nat) : Prop where
  path : r.path.length < count
  idPath : ∀ p, r.idPath = some p → p.length ≤ count
  tenantPath : ∀ p, r.tenantPath = some p → p.length ≤ count
  attributePaths : ∀ e ∈ r.attributePaths, e.2.length ≤ count

variable {s : Schema} {resource : Message}

theorem length_append_through {label : String} {steps : List RouteStep}
    {segment : Segment} :
    (((⟨label, []⟩ : AccessPath).through steps).append segment).length =
      steps.length + 1 := by
  simp [AccessPath.through, AccessPath.append, AccessPath.length, segments]

theorem length_le_of_findKey (registered : s.Registers resource) {key : Key} {label : String}
    {k : KeyField} (h : findKey s key ⟨label, []⟩ resource = some k) :
    k.path.length ≤ s.messages.length := by
  rcases exists_first_keyChain h with ⟨_, steps, _, hchain, _, hpath, _⟩
  rw [hpath, length_append_through]
  exact hchain.fresh.length_lt registered

theorem length_le_of_mem_findAttributes (registered : s.Registers resource) {label : String}
    {a : AttributeField} (h : a ∈ findAttributes s ⟨label, []⟩ resource) :
    a.path.length ≤ s.messages.length := by
  rcases exists_attributeAt s _ _ resource _ (fun f hf => hf) h with ⟨steps, hat⟩
  rw [hat.path, length_append_through]
  exact hat.fresh.length_lt registered

theorem pathsWithin_of_discover {target : MessageRef} {r : Resource}
    (h : (discover s target).1 = some r) : r.PathsWithin s.messages.length := by
  rcases exists_site_of_discover h with ⟨request, site, hrequest, hsite, rfl⟩
  have registered := registers_of_message? hrequest
  rw [findResource_eq_here] at hsite
  rcases (resourceBelow_firstMatch s).exists_hit hsite with ⟨steps, label, hit⟩
  have hfresh := hit.fresh
  -- the messages on a path are distinct and registered, so the registry bounds them
  have hmessage : s.Registers site.message := by
    rw [hit.built]
    exact hfresh.registers_arrival registered
  exact
    { path := by
        rw [hit.leadsToResource.path, AccessPath.length, segments, List.length_map]
        exact hfresh.length_lt registered
      idPath := by
        intro p hp
        rcases Option.map_eq_some_iff.mp hp with ⟨k, hk, rfl⟩
        exact length_le_of_findKey hmessage hk
      tenantPath := by
        intro p hp
        rcases Option.map_eq_some_iff.mp hp with ⟨k, hk, rfl⟩
        exact length_le_of_findKey hmessage hk
      attributePaths := by
        intro e he
        rcases mem_recordAttributes he with hnil | ⟨a, ha, rfl⟩
        · cases hnil
        · exact length_le_of_mem_findAttributes hmessage ha }

/-!
## Restored branches
-/

/-- Every call of a search comes to an end, with the branch as it was and with the result
of the search that hands the branch down, which is what discovery finds where the branch is
empty.  Calls on registered messages with an empty branch are fresh, and so are all calls
that they make.  The paths of a resource are no longer than the registered messages
allow. -/
theorem searches_restore_branch (s : Schema) :
    (∀ (c : SearchCall) (path : AccessPath),
      Searching.Returns c.branch (s.searchResource path c.message)
        ((ownResource path c.message).orElse fun _ =>
          resourceBelow s c.inside path c.message.fields) (c.Keeps s) ∧
      (∀ key, Searching.Returns c.branch (s.searchKey key path c.message)
        ((ownKey key path c.message).orElse fun _ =>
          keyBelow s key c.inside path c.message.fields) (c.Keeps s)) ∧
      ∀ found, Searching.Returns c.branch
        (s.searchAttributes path c.message found)
        (found ++ attributesBelow s c.inside path c.message c.message.fields)
        (c.Keeps s)) ∧
    (∀ m, s.Registers m → SearchCall.IsFresh s ⟨m, []⟩) ∧
    ∀ target r, (discover s target).1 = some r → r.PathsWithin s.messages.length := by
  refine ⟨?_, ?_, ?_⟩
  · intro c path
    have hself := c.keeps_self s
    have hdescends := c.descends_keeps s
    refine ⟨?_, ?_, ?_⟩
    · exact Searching.returns_searchFirst (resourceBelow_firstMatch s) hdescends c hself path
    · intro key
      exact Searching.returns_searchFirst (keyBelow_firstMatch s key) hdescends c hself path
    · intro found
      exact Searching.returns_searchAttributes hdescends c hself path found
  · intro m registered
    exact SearchCall.isFresh_root registered
  · intro target r h
    exact pathsWithin_of_discover h

namespace Sample

def getFolder : Message :=
  folderSchema.messages[0]

def folder : Message :=
  folderSchema.messages[1]

def folderDoc : Message :=
  folderSchema.messages[2]

theorem message?_getFolder : folderSchema.message? ⟨"Get"⟩ = some getFolder := by
  cbv

theorem message?_folder : folderSchema.message? ⟨"Folder"⟩ = some folder := by
  cbv

theorem message?_folderDoc : folderSchema.message? ⟨"Doc"⟩ = some folderDoc := by
  cbv

theorem exists_discovered_folderDoc :
    ∃ r, (discover folderSchema ⟨"Get"⟩).1 = some r := by
  have hfolder : Leads folderSchema.ResourceEdge getFolder folder :=
    ⟨_, List.mem_cons_self, rfl, ⟨"Folder"⟩, rfl, message?_folder⟩
  have hdoc : Leads folderSchema.ResourceEdge folder folderDoc :=
    ⟨⟨"docs", .list (.message ⟨"Doc"⟩), false, false, {}⟩, by decide, rfl, ⟨"Doc"⟩, rfl,
      message?_folderDoc⟩
  have hfound := exists_findResource_of_reachable message?_getFolder
    (Relation.ReflTransGen.head hfolder (Relation.ReflTransGen.single hdoc)) rfl
  rcases Option.isSome_iff_exists.mp hfound with ⟨site, hsite⟩
  exact ⟨_, by rw [discover_fst message?_getFolder, hsite, Option.map_some]⟩

def folderCall : SearchCall :=
  ⟨folder, ["Get"]⟩

theorem isFresh_folderCall : folderCall.IsFresh folderSchema := by
  have hroot := SearchCall.isFresh_root (registers_of_message? message?_getFolder)
  have hname : getFolder.fullName = "Get" := by cbv
  have hfolder : folder.fullName = "Folder" := by cbv
  have hentered : folderSchema.enter [getFolder.fullName] ⟨"Folder"⟩ = some folder := by
    rw [enter_eq_some_iff, hname, hfolder]
    exact ⟨message?_folder, by decide⟩
  have hfresh := hroot.enter hentered
  rwa [SearchCall.inside, hname] at hfresh

end Sample

theorem searches_restore_branch_folders :
    (∃ r, (discover folderSchema ⟨"Get"⟩).1 = some r ∧ r.PathsWithin 3) ∧
      Sample.folderCall.IsFresh folderSchema ∧
      Searching.Returns ["Get"]
        (folderSchema.searchResource ⟨requestRoot, []⟩ Sample.folder)
        ((ownResource ⟨requestRoot, []⟩ Sample.folder).orElse fun _ =>
          resourceBelow folderSchema Sample.folderCall.inside ⟨requestRoot, []⟩
            Sample.folder.fields)
        (Sample.folderCall.Keeps folderSchema) := by
  rcases searches_restore_branch folderSchema with ⟨hreturns, _, hpaths⟩
  rcases Sample.exists_discovered_folderDoc with ⟨r, hr⟩
  exact ⟨⟨r, hr, hpaths _ r hr⟩, Sample.isFresh_folderCall,
    (hreturns Sample.folderCall ⟨requestRoot, []⟩).1⟩

end AccessChecks
