import AccessChecks.Proofs.CheckSites

/-!
# Keys of checks

## Naming values

A text that is not empty names something, and so does an integer that is not zero.
A key is the text of a value that names something, and a default otherwise.

## Keys of a site

The tenant and the id of a check are read off the site of the check, and off
nothing else.  Ids behind a collection are taken as they are.
-/

namespace AccessChecks

open Reading

namespace Data

/-- The data names something by a text. -/
inductive Names : Data → String → Prop where
  | text {name : String} : name ≠ "" → Names (.scalar (.string name)) name
  | number {v : ScalarData} {n : Int} :
      v.integer? = some n → n ≠ 0 → Names (.scalar v) (toString n)

theorem names_of_keyText {d : Data} {name : String}
    (h : d.keyText? = some name) : d.Names name := by
  cases d with
  | scalar v =>
      cases hn : v.integer? with
      | some n =>
          have hkey : (scalar v).keyText? =
              if n = 0 then none else some (toString n) := by
            cases v <;> simp_all [keyText?, ScalarData.integer?]
          rw [hkey] at h
          split at h
          · cases h
          · rename_i hzero
            cases h
            exact Names.number hn hzero
      | none =>
          cases v with
          | string text =>
              rw [keyText?] at h
              split at h
              · cases h
              · rename_i hempty
                cases h
                apply Names.text
                rintro rfl
                exact hempty rfl
          | _ => simp_all [keyText?, ScalarData.integer?]
  | _ => cases h

theorem keyText_of_names {d : Data} {name : String} (h : d.Names name) :
    d.keyText? = some name := by
  cases h with
  | text hname =>
      rw [keyText?, if_neg]
      simpa [String.isEmpty_iff] using hname
  | number hn hzero =>
      rename_i v n
      cases v <;> simp_all [keyText?, ScalarData.integer?]

end Data

/-- The text of a value that names something, and the default if there is no such
value. -/
inductive KeyIs (default_ : String) (v : Option Data) : String → Prop where
  | named {d : Data} {name : String} :
      v = some d → d.Names name → KeyIs default_ v name
  | unnamed :
      (∀ d name, v = some d → ¬ d.Names name) → KeyIs default_ v default_

theorem keyIs_keyOr (default_ : String) (v : Option Data) :
    KeyIs default_ v (keyOr default_ v) := by
  rw [keyOr]
  cases hkey : v.bind Data.keyText? with
  | some name =>
      rcases Option.bind_eq_some_iff.mp hkey with ⟨d, hd, hname⟩
      exact KeyIs.named hd (Data.names_of_keyText hname)
  | none =>
      apply KeyIs.unnamed
      intro d name hd hnames
      rw [hd, Option.bind_some, Data.keyText_of_names hnames] at hkey
      cases hkey

/-!
## Keys of a site
-/

namespace Resource

/-- The id that belongs to a site. -/
inductive IdIs (r : Resource) (site : CheckSite) : String → Prop where
  | missing : r.usableIdPath = none → IdIs r site ""
  | key {p : AccessPath} {id : String} :
      r.usableIdPath = some p → p.crossesCollection = false →
      KeyIs "" (valueAt p.segments site.inst) id → IdIs r site id
  | element {p : AccessPath} {d : Data} {id : String} :
      r.usableIdPath = some p → p.crossesCollection = true →
      site.id = some d → d.text? = some id → IdIs r site id

/-- The keys of a check are those of a site. -/
structure KeysAt (r : Resource) (permission : String) (site : CheckSite)
    (c : Check) : Prop where
  permission : c.permission = permission
  resourceType : c.resource.resourceType = r.resourceType
  tenant :
    KeyIs "default"
      (r.usableTenantPath.bind fun p => valueAt p.segments site.inst)
      c.tenantId
  id : r.IdIs site c.resource.id

theorem exists_element_of_mem_sitesIn {s : Schema} {target : MessageRef}
    {r : Resource} (found : (discover s target).1 = some r) {d : Data}
    (hd : s.Holds (.message target) d) {site : CheckSite}
    (hsite : site ∈ r.sitesIn d) {p : AccessPath}
    (hp : r.usableIdPath = some p) (hcross : p.crossesCollection = true) :
    ∃ e text, site.id = some e ∧ e.text? = some text := by
  have hreached := (inst_mem_of_mem_sitesIn hsite).2 p hp
  have hreadable := readable_of_mem_sitesIn found hd hsite
  rcases fansOutLast_of_usableIdPath found hp hcross with
    ⟨front, last, hsegments, hfront, hlast⟩
  have helement : ∃ e, site.id = some e := by
    rw [hsegments, reached_cut hfront hlast] at hreached
    split at hreached
    · cases hreached
    · rcases List.mem_flatMap.mp hreached with ⟨e, _, hid⟩
      exact ⟨e, List.mem_singleton.mp hid⟩
  rcases helement with ⟨e, he⟩
  have hfits : ∀ i ∈ site.inst,
      Fits (fun leaf => ∃ text, leaf.text? = some text) p.segments i := by
    intro i hi
    rcases (hreadable i hi).id p hp with ⟨kind, _, hid, hfits⟩
    apply hfits.mono
    intro leaf hleaf
    rcases exists_keyData hid hleaf with ⟨text, zero, hdata⟩
    exact ⟨text, hdata.text?⟩
  rcases fits_of_mem_reached hfits hreached e he with ⟨text, htext⟩
  exact ⟨e, text, he, htext⟩

theorem idIs_idAt {s : Schema} {target : MessageRef} {r : Resource}
    (found : (discover s target).1 = some r) {d : Data}
    (hd : s.Holds (.message target) d) {site : CheckSite}
    (hsite : site ∈ r.sitesIn d) : r.IdIs site (r.idAt site) := by
  rw [idAt, fansOut]
  cases hp : r.usableIdPath with
  | none =>
      rw [Option.any_none, if_neg (by decide)]
      exact IdIs.missing hp
  | some p =>
      cases hcross : p.crossesCollection with
      | false =>
          rw [Option.any_some, hcross, if_neg (by decide)]
          exact IdIs.key hp hcross (keyIs_keyOr _ _)
      | true =>
          rcases exists_element_of_mem_sitesIn found hd hsite hp hcross with
            ⟨e, text, he, htext⟩
          rw [Option.any_some, hcross, if_pos rfl, he, Option.bind_some, htext]
          exact IdIs.element hp hcross he htext

end Resource

/-- Every check that a gated body pushes takes its keys from its own site. -/
theorem gatedBody_keys_of_one_site {s : Schema} {target : MessageRef}
    {r : Resource} (found : (discover s target).1 = some r)
    (permission : String) (mode : Option BulkMode) :
    Emission.Yields r.IllegalOn (Emission.gatedBody r permission mode)
      fun body => ∀ d, s.Holds (.message target) d →
        ∃ config, body.run d = some config ∧
          List.Forall₂ (r.KeysAt permission) (r.sitesIn d) config.checks := by
  apply Emission.yields_mono
    (yields_gatedBody_of_discover found permission mode)
  intro body hrun d hd
  refine ⟨_, hrun d hd, Resource.forall₂_sitesIn ?_⟩
  intro site hsite
  constructor
  · rfl
  · rfl
  · exact keyIs_keyOr defaultTenant _
  · exact Resource.idIs_idAt found hd hsite

theorem gatedBody_docSchema_keys :
    (discover Sample.docSchema ⟨"Get"⟩).1 = some Sample.docResource ∧
    ∃ body config,
      ((Emission.gatedBody Sample.docResource "view" none).run.run 0).1 =
        .ok body ∧
      body.run Sample.request = some config ∧
      List.Forall₂ (Sample.docResource.KeysAt "view")
        (Sample.docResource.sitesIn Sample.request) config.checks := by
  refine ⟨Sample.discover_docSchema, ?_⟩
  rcases Emission.exists_result_of_yields
    (gatedBody_keys_of_one_site Sample.discover_docSchema "view" none)
    Sample.not_illegalOn_docResource 0 with ⟨body, hbody, hkeys⟩
  rcases hkeys Sample.request Sample.holds_request with ⟨config, hrun⟩
  exact ⟨body, config, hbody, hrun⟩

example :
    (Sample.docResource.checksIn "view" Sample.request).map
      (fun c => (c.tenantId, c.resource.id)) =
      [("acme", "a"), ("acme", "b"), ("default", "c")] := by
  rfl

end AccessChecks
