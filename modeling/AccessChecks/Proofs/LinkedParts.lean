import AccessChecks.Descriptor.Link

/-!
# Parts of what is linked

## Declarations

A declaration is linked by linking the declarations in it and its options.  Whatever
else it says stays as it is.  Each lemma here takes one linked declaration apart, so
that what linking keeps can be read off.

## Pools

Files are linked to a pool exactly if they fit together and each of them is linked.
-/

namespace AccessChecks

namespace Descriptor

namespace Pool

variable {p : Pool} {f : FileDecl} {scope : String}

/-!
## Declarations
-/

theorem exists_options_of_linkField? {d d' : FieldDecl}
    (h : p.linkField? f scope d = some d') :
    ∃ options, p.linkOptions? f (qualify scope d.name) .field d.options = some options ∧
      d' = { d with options := options } := by
  rcases Option.bind_eq_some_iff.mp h with ⟨options, hoptions, hsome⟩
  exact ⟨options, hoptions, (Option.some.inj hsome).symm⟩

theorem exists_options_of_linkOneof? {o o' : OneofDecl}
    (h : p.linkOneof? f scope o = some o') :
    ∃ options, p.linkOptions? f (qualify scope o.name) .oneof o.options = some options ∧
      o' = { o with options := options } := by
  rcases Option.bind_eq_some_iff.mp h with ⟨options, hoptions, hsome⟩
  exact ⟨options, hoptions, (Option.some.inj hsome).symm⟩

theorem exists_options_of_linkEnumValue? {v v' : EnumValueDecl}
    (h : p.linkEnumValue? f scope v = some v') :
    ∃ options,
      p.linkOptions? f (qualify scope v.name) .enumValue v.options = some options ∧
      v' = { v with options := options } := by
  rcases Option.bind_eq_some_iff.mp h with ⟨options, hoptions, hsome⟩
  exact ⟨options, hoptions, (Option.some.inj hsome).symm⟩

theorem exists_options_of_linkMethod? {m m' : MethodDecl}
    (h : p.linkMethod? f scope m = some m') :
    ∃ options, p.linkOptions? f (qualify scope m.name) .method m.options = some options ∧
      m' = { m with options := options } := by
  rcases Option.bind_eq_some_iff.mp h with ⟨options, hoptions, hsome⟩
  exact ⟨options, hoptions, (Option.some.inj hsome).symm⟩

theorem exists_parts_of_linkMessage? {m m' : MessageDecl}
    (h : p.linkMessage? f m = some m') :
    ∃ fields oneofs extensible options,
      m.fields.mapM (p.linkField? f (f.messageName m)) = some fields ∧
      m.oneofs.mapM (p.linkOneof? f (f.messageName m)) = some oneofs ∧
      m.extensible.mapM (p.linkRange? f (f.messageName m)) = some extensible ∧
      p.linkOptions? f (f.messageName m) .message m.options = some options ∧
      m' =
        { m with
          fields := fields
          oneofs := oneofs
          extensible := extensible
          options := options } := by
  rcases Option.bind_eq_some_iff.mp h with ⟨fields, hfields, hrest⟩
  rcases Option.bind_eq_some_iff.mp hrest with ⟨oneofs, honeofs, hrest⟩
  rcases Option.bind_eq_some_iff.mp hrest with ⟨extensible, hextensible, hrest⟩
  rcases Option.bind_eq_some_iff.mp hrest with ⟨options, hoptions, hsome⟩
  exact ⟨fields, oneofs, extensible, options, hfields, honeofs, hextensible, hoptions,
    (Option.some.inj hsome).symm⟩

theorem exists_parts_of_linkEnum? {e e' : EnumDecl} (h : p.linkEnum? f e = some e') :
    ∃ values options,
      e.values.mapM (p.linkEnumValue? f (f.scopeOf e.parents)) = some values ∧
      p.linkOptions? f (f.enumName e) .enum e.options = some options ∧
      e' = { e with values := values, options := options } := by
  rcases Option.bind_eq_some_iff.mp h with ⟨values, hvalues, hrest⟩
  rcases Option.bind_eq_some_iff.mp hrest with ⟨options, hoptions, hsome⟩
  exact ⟨values, options, hvalues, hoptions, (Option.some.inj hsome).symm⟩

theorem exists_field_of_linkExtension? {e e' : ExtensionDecl}
    (h : p.linkExtension? f e = some e') :
    ∃ field, p.linkField? f (f.scopeOf e.parents) e.field = some field ∧
      e' = { e with field := field } := by
  rcases Option.bind_eq_some_iff.mp h with ⟨field, hfield, hsome⟩
  exact ⟨field, hfield, (Option.some.inj hsome).symm⟩

theorem exists_parts_of_linkService? {s s' : ServiceDecl}
    (h : p.linkService? f s = some s') :
    ∃ methods options,
      s.methods.mapM (p.linkMethod? f (f.serviceName s)) = some methods ∧
      p.linkOptions? f (f.serviceName s) .service s.options = some options ∧
      s' = { s with methods := methods, options := options } := by
  rcases Option.bind_eq_some_iff.mp h with ⟨methods, hmethods, hrest⟩
  rcases Option.bind_eq_some_iff.mp hrest with ⟨options, hoptions, hsome⟩
  exact ⟨methods, options, hmethods, hoptions, (Option.some.inj hsome).symm⟩

theorem exists_parts_of_linkFile? {g : FileDecl} (h : p.linkFile? f = some g) :
    ∃ messages enums extensions services options,
      f.messages.mapM (p.linkMessage? f) = some messages ∧
      f.enums.mapM (p.linkEnum? f) = some enums ∧
      f.extensions.mapM (p.linkExtension? f) = some extensions ∧
      f.services.mapM (p.linkService? f) = some services ∧
      p.linkOptions? f f.package .file f.options = some options ∧
      g =
        { f with
          messages := messages
          enums := enums
          extensions := extensions
          services := services
          options := options } := by
  rcases Option.bind_eq_some_iff.mp h with ⟨messages, hmessages, hrest⟩
  rcases Option.bind_eq_some_iff.mp hrest with ⟨enums, henums, hrest⟩
  rcases Option.bind_eq_some_iff.mp hrest with ⟨extensions, hextensions, hrest⟩
  rcases Option.bind_eq_some_iff.mp hrest with ⟨services, hservices, hrest⟩
  rcases Option.bind_eq_some_iff.mp hrest with ⟨options, hoptions, hsome⟩
  exact ⟨messages, enums, extensions, services, options, hmessages, henums, hextensions,
    hservices, hoptions, (Option.some.inj hsome).symm⟩

/-!
## Pools
-/

variable {files : List FileDecl}

theorem link?_of_isConsistent (h : (ofFiles files).isConsistent = true) :
    link? files = (files.mapM (ofFiles files).linkFile?).map ofFiles := by
  unfold link?
  dsimp only
  rw [h, Option.map_eq_bind]
  rfl

theorem link?_of_not_isConsistent (h : (ofFiles files).isConsistent = false) :
    link? files = none := by
  unfold link?
  dsimp only
  rw [h]
  rfl

theorem exists_linked_of_link? (h : link? files = some p) :
    ∃ linked, (ofFiles files).isConsistent = true ∧
      files.mapM (ofFiles files).linkFile? = some linked ∧ p = ofFiles linked := by
  cases hconsistent : (ofFiles files).isConsistent with
  | false =>
      rw [link?_of_not_isConsistent hconsistent] at h
      cases h
  | true =>
      rw [link?_of_isConsistent hconsistent] at h
      rcases Option.map_eq_some_iff.mp h with ⟨linked, hlinked, rfl⟩
      exact ⟨linked, rfl, hlinked, rfl⟩

end Pool

end Descriptor

end AccessChecks
