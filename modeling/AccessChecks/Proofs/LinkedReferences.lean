import AccessChecks.Descriptor.Schema
import AccessChecks.Proofs.LinkedOutlines

/-!
# References in linked pools

## Messages

A declared name of a message stands for one message in one file.

## Linked pools

A linked pool comes from files that fit together.  Linking sets options only, so a name
refers to the same declaration as before, and the input of every method is found.
-/

namespace AccessChecks

namespace Descriptor

/-!
## Messages
-/

theorem kind_of_mem_memberNames {α : Type} {members : List α} {name : α → String}
    {entry : String × NameKind}
    (h : entry ∈ members.map fun a => (name a, NameKind.member)) :
    entry.2 = .member := by
  rcases List.mem_map.mp h with ⟨_, _, rfl⟩
  rfl

theorem name_of_mem_messageNames {f : FileDecl} {m : MessageDecl}
    {entry : String × NameKind} (h : entry ∈ f.messageNames m)
    (hkind : entry.2 = .message) : entry.1 = f.messageName m := by
  rcases List.mem_cons.mp h with rfl | hmember
  · rfl
  · rw [kind_of_mem_memberNames hmember] at hkind
    cases hkind

theorem exists_message_of_mem_declaredNames {f : FileDecl} {d : DeclaredName}
    (h : d ∈ f.declaredNames) (hkind : d.kind = .message) :
    ∃ m ∈ f.messages, d = ⟨f.messageName m, .message, f.name⟩ := by
  rcases List.mem_map.mp h with ⟨entry, hentry, rfl⟩
  simp only [List.mem_append] at hentry
  rcases hentry with (((hpackage | hmessage) | henum) | hextension) | hservice
  · rcases List.mem_map.mp hpackage with ⟨_, _, rfl⟩
    cases hkind
  · rcases List.mem_flatMap.mp hmessage with ⟨m, hm, hentry⟩
    exact ⟨m, hm, by rw [← name_of_mem_messageNames hentry hkind, ← hkind]⟩
  · rcases List.mem_flatMap.mp henum with ⟨e, _, hentry⟩
    rcases List.mem_cons.mp hentry with rfl | hvalue
    · cases hkind
    · rw [kind_of_mem_memberNames hvalue] at hkind
      cases hkind
  · rcases List.mem_map.mp hextension with ⟨_, _, rfl⟩
    cases hkind
  · rcases List.mem_flatMap.mp hservice with ⟨s, _, hentry⟩
    rcases List.mem_cons.mp hentry with rfl | hmethod
    · cases hkind
    · rw [kind_of_mem_memberNames hmethod] at hkind
      cases hkind

theorem exists_placed_of_mem_namesOf {files : List FileDecl} {d : DeclaredName}
    (h : d ∈ namesOf files) (hkind : d.kind = .message) :
    ∃ f ∈ files, ∃ m ∈ f.messages, d = ⟨f.messageName m, .message, f.name⟩ := by
  rcases List.mem_flatMap.mp h with ⟨f, hf, hd⟩
  rcases exists_message_of_mem_declaredNames hd hkind with ⟨m, hm, hname⟩
  exact ⟨f, hf, m, hm, hname⟩

theorem mem_placedMessages {files : List FileDecl} {f : FileDecl} {m : MessageDecl} :
    (f, m) ∈ placedMessages files ↔ f ∈ files ∧ m ∈ f.messages := by
  unfold placedMessages
  constructor
  · intro h
    rcases List.mem_flatMap.mp h with ⟨g, hg, hmem⟩
    rcases List.mem_map.mp hmem with ⟨n, hn, heq⟩
    cases heq
    exact ⟨hg, hn⟩
  · rintro ⟨hf, hm⟩
    exact List.mem_flatMap.mpr ⟨f, hf, List.mem_map.mpr ⟨m, hm, rfl⟩⟩

namespace Pool

/-!
## Linked pools
-/

variable {files linked : List FileDecl} {p : Pool}

theorem namesAgree_of_link? (h : link? files = some p) : namesAgree p.names = true := by
  rcases exists_linked_of_link? h with ⟨linked, hconsistent, hlinked, rfl⟩
  have houtlines : linked.map FileDecl.outline = files.map FileDecl.outline :=
    map_eq_of_mapM hlinked fun _ _ hfile => outline_of_linkFile? hfile
  exact (namesApart_of_outlines houtlines (namesApart_of_isConsistent hconsistent)).names

theorem resolve?_of_outlines {f g : FileDecl}
    (h : linked.map FileDecl.outline = files.map FileDecl.outline)
    (hfile : g.outline = f.outline) :
    (ofFiles linked).resolve? g = (ofFiles files).resolve? f := by
  have hnames : namesOf linked = namesOf files := by
    rw [namesOf_eq_outlines, h, ← namesOf_eq_outlines]
  have hvisible : visibleFrom linked g = visibleFrom files f := by
    rw [visibleFrom_eq_outlines, h, hfile, ← visibleFrom_eq_outlines]
  funext fits scope name
  change resolveName? (namesOf linked) (visibleFrom linked g) fits scope name =
    resolveName? (namesOf files) (visibleFrom files f) fits scope name
  rw [hnames, hvisible]

theorem exists_method_of_linkFile? {f g : FileDecl} (h : p.linkFile? f = some g)
    {s : ServiceDecl} (hs : s ∈ g.services) {m : MethodDecl} (hm : m ∈ s.methods) :
    ∃ s' ∈ f.services, ∃ m' ∈ s'.methods,
      g.serviceName s = f.serviceName s' ∧ m.input = m'.input := by
  rcases exists_parts_of_linkFile? h with ⟨_, _, _, services, _, _, _, _, hservices, _, rfl⟩
  rcases exists_of_mem_mapM hservices s hs with ⟨s', hs', hlink⟩
  rcases exists_parts_of_linkService? hlink with ⟨methods, _, hmethods, _, rfl⟩
  rcases exists_of_mem_mapM hmethods m hm with ⟨m', hm', hlinkMethod⟩
  rcases exists_options_of_linkMethod? hlinkMethod with ⟨_, _, rfl⟩
  exact ⟨s', hs', m', hm', rfl, rfl⟩

theorem exists_input_of_link? (h : link? files = some p) {f : FileDecl}
    (hf : f ∈ p.files) {s : ServiceDecl} (hs : s ∈ f.services) {m : MethodDecl}
    (hm : m ∈ s.methods) :
    ∃ d, p.resolve? f (· == .message) (f.serviceName s) m.input = some d := by
  rcases exists_linked_of_link? h with ⟨linked, hconsistent, hlinked, rfl⟩
  have houtlines : linked.map FileDecl.outline = files.map FileDecl.outline :=
    map_eq_of_mapM hlinked fun _ _ hfile => outline_of_linkFile? hfile
  rcases exists_of_mem_mapM hlinked f hf with ⟨g, hg, hfile⟩
  rcases exists_method_of_linkFile? hfile hs hm with ⟨s', hs', m', hm', hscope, hinput⟩
  rw [resolve?_of_outlines houtlines (outline_of_linkFile? hfile), hscope, hinput]
  simp only [isConsistent, Bool.and_eq_true] at hconsistent
  have htypes := List.all_eq_true.mp hconsistent.1.1.2 g hg
  simp only [resolvesTypes, Bool.and_eq_true] at htypes
  have hmethod := List.all_eq_true.mp (List.all_eq_true.mp htypes.2 s' hs') m' hm'
  simp only [resolvesMethod, Bool.and_eq_true, resolveMessage?, Option.isSome_map]
    at hmethod
  exact Option.isSome_iff_exists.mp hmethod.1

end Pool

end Descriptor

end AccessChecks
