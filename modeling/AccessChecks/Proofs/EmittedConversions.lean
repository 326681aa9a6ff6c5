import AccessChecks.Proofs.ConvertedLists
import AccessChecks.Proofs.DiscoveredPaths
import AccessChecks.Proofs.EmittedValues

/-!
# Emitted conversions

The emitted conversion of a value computes the attribute value that its type gives
it.  Every value of an attribute type has one.
-/

namespace AccessChecks

open Reading

/-!
## Values of a kind
-/

namespace Value

structure Reads (env : Environment) (value : Value) (d : Data) : Prop where
  expr : value.expr.eval env = some d
  copied : value.copied.eval env = some d

theorem reads_place {env : Environment} {e : Expr} {d : Data}
    (h : e.eval env = some d) : (place e).Reads env d :=
  { expr := h
    copied := h }

theorem reads_ref {env : Environment} {e : Expr} {d : Data}
    (h : e.eval env = some d) : (ref e).Reads env d :=
  { expr := h
    copied := by
      rw [copied, Expr.eval, h]
      rfl }

theorem eval_call {env : Environment} {function : Item} {argument : Expr}
    {d : Data} (h : argument.eval env = some d) :
    (Expr.call function [argument]).eval env = Data.apply function [d] := by
  rw [Expr.eval, Expr.evalAll, h]
  rfl

theorem eval_call_call {env : Environment} {outer inner : Item}
    {argument : Expr} {d : Data} (h : argument.eval env = some d) :
    (Expr.call outer [.call inner [argument]]).eval env =
      (Data.apply inner [d]).bind fun e => Data.apply outer [e] := by
  rw [Expr.eval, Expr.evalAll, eval_call h]
  cases Data.apply inner [d] <;> rfl

theorem eval_clone {env : Environment} {e : Expr} {d : Data}
    (h : e.eval env = some d) : (Expr.method e .clone []).eval env = some d := by
  rw [Expr.eval, h]
  cases d <;> rfl

theorem isSome_convertKind (kind : Kind) (value : Value) :
    (convertKind kind value).isSome = kind.message?.isNone := by
  cases kind with
  | scalar t => cases t <;> rfl
  | enum name => rfl
  | message target => rfl

theorem eval_convertKind {s : Schema} {kind : Kind} {d : Data}
    (hd : s.Holds kind d) {env : Environment} {value : Value}
    (hvalue : value.Reads env d) {e : Expr}
    (he : convertKind kind value = some e) :
    e.eval env = (kind.attribute? d).map .value := by
  cases hd with
  | unknown => cases he
  | message => cases he
  | enum =>
      cases he
      exact eval_call_call hvalue.copied
  | scalar hholds =>
      rename_i t v
      cases t with
      | bool =>
          cases he
          cases v with
          | bool b => exact eval_call hvalue.copied
          | _ => cases hholds
      | int32 =>
          cases he
          cases v with
          | int32 i => exact eval_call_call hvalue.copied
          | _ => cases hholds
      | int64 =>
          cases he
          cases v with
          | int64 i => exact eval_call_call hvalue.copied
          | _ => cases hholds
      | uint32 =>
          cases he
          cases v with
          | uint32 n => exact eval_call_call hvalue.copied
          | _ => cases hholds
      | uint64 =>
          cases he
          cases v with
          | uint64 n => exact eval_call_call hvalue.copied
          | _ => cases hholds
      | float =>
          cases he
          cases v with
          | float bits => exact eval_call_call hvalue.copied
          | _ => cases hholds
      | double =>
          cases he
          cases v with
          | double x => exact eval_call_call hvalue.copied
          | _ => cases hholds
      | string =>
          cases he
          cases v with
          | string text => exact eval_call (eval_clone hvalue.expr)
          | _ => cases hholds
      | bytes =>
          cases he
          cases v with
          | bytes bs => exact eval_call (eval_clone hvalue.expr)
          | _ => cases hholds

end Value

theorem isSome_attribute_of_holds {s : Schema} {kind : Kind} {d : Data}
    (hkind : kind.message? = none) (hd : s.Holds kind d) :
    (kind.attribute? d).isSome = true := by
  cases hd with
  | unknown => cases hkind
  | message => cases hkind
  | enum => rfl
  | scalar hholds =>
      rename_i t v
      cases t <;> cases v <;> first | rfl | cases hholds

theorem isSome_attributeEntry_of_holds {s : Schema} {kind : Kind}
    {entry : ScalarData × Data} (hkind : kind.message? = none)
    (hkey : entry.1.isMapKey = true) (hd : s.Holds kind entry.2) :
    (kind.attributeEntry? entry).isSome = true := by
  rcases Option.isSome_iff_exists.mp hkey with ⟨text, htext⟩
  rcases Option.isSome_iff_exists.mp (isSome_attribute_of_holds hkind hd) with
    ⟨a, ha⟩
  rw [Kind.attributeEntry?, htext, Option.bind_some, ha]
  rfl

/-!
## Values of a type
-/

theorem isSome_attribute_of_holdsValue {s : Schema} {type : FieldType}
    {d : Data} (htype : type.isAttributeType = true)
    (hd : s.HoldsValue type d) : (type.attribute? d).isSome = true := by
  have hkind : type.valueKind.message? = none := by
    simpa [FieldType.isAttributeType, FieldType.messageTarget] using htype
  cases type with
  | single kind => exact isSome_attribute_of_holds hkind hd
  | list kind =>
      rcases hd with ⟨items, rfl, hitems⟩
      rw [FieldType.attribute?, Option.isSome_map]
      apply isSome_mapM
      intro item hitem
      exact isSome_attribute_of_holds hkind (hitems item hitem)
  | map key kind =>
      rcases hd with ⟨entries, rfl, hkeys, hvalues⟩
      rw [FieldType.attribute?, Option.isSome_map]
      apply isSome_mapM
      intro entry hentry
      exact isSome_attributeEntry_of_holds hkind (hkeys entry hentry).2
        (hvalues entry hentry)

namespace Value

theorem isSome_convert (type : FieldType) (value : Value) :
    (value.convert type).isSome = type.isAttributeType := by
  cases type with
  | single kind => exact isSome_convertKind kind value
  | list kind =>
      rw [convert, Option.isSome_map]
      exact isSome_convertKind kind _
  | map key kind =>
      rw [convert, Option.isSome_map]
      exact isSome_convertKind kind _

theorem eval_gathered {env : Environment} {e body : Expr} {parameter : Pattern}
    {d : Data} {items results : List Data} (he : e.eval env = some d)
    (hiter : Data.invoke .iter d = some (.list items))
    (hbody : items.mapM (fun x =>
      (parameter.bindTo x env).bind fun inner => body.eval inner) =
        some results) :
    (Expr.method
      (.method (.method e .iter []) .map [.closure parameter body])
      .collect []).eval env = some (.list results) := by
  rw [Expr.eval, Expr.eval, Expr.eval, he, Option.bind_some, hiter,
    Option.bind_some, Data.adapt, hbody]
  rfl

theorem eval_convert_list {s : Schema} {kind : Kind} {items : List Data}
    (hitems : ∀ d ∈ items, s.Holds kind d) (hkind : kind.message? = none)
    {env : Environment} {value : Value} {e : Expr}
    (hvalue : value.expr.eval env = some (.list items))
    (he : value.convert (.list kind) = some e) :
    e.eval env = ((FieldType.list kind).attribute? (.list items)).map .value := by
  rcases Option.map_eq_some_iff.mp he with ⟨body, hbody, rfl⟩
  rcases Option.isSome_iff_exists.mp
    (isSome_mapM fun d hd =>
      isSome_attribute_of_holds hkind (hitems d hd)) with ⟨as, has⟩
  have hresults : items.mapM (fun x =>
      ((Pattern.name inner).bindTo x env).bind fun inner => body.eval inner) =
        some (as.map .value) := by
    rw [mapM_map_result (f := kind.attribute?), has]
    · rfl
    · intro d hd
      exact eval_convertKind (hitems d hd)
        (reads_ref (eval_bound inner d env)) hbody
  rw [eval_call (eval_gathered hvalue rfl hresults), Data.apply,
    AttributeForm.build?,
    mapM_map_inverse (f := Data.value) (g := Data.asValue?) (fun _ => rfl),
    FieldType.attribute?, has]

def entryData (entry : String × AttributeValue) : Data :=
  .pair (.string entry.1) (.value entry.2)

theorem eval_convert_map {s : Schema} {key : Scalar} {kind : Kind}
    {entries : List (ScalarData × Data)}
    (hkeys : ∀ entry ∈ entries, entry.1.isMapKey = true)
    (hvalues : ∀ entry ∈ entries, s.Holds kind entry.2)
    (hkind : kind.message? = none)
    {env : Environment} {value : Value} {e : Expr}
    (hvalue : value.expr.eval env = some (.map entries))
    (he : value.convert (.map key kind) = some e) :
    e.eval env =
      ((FieldType.map key kind).attribute? (.map entries)).map .value := by
  rcases Option.map_eq_some_iff.mp he with ⟨body, hbody, rfl⟩
  rcases Option.isSome_iff_exists.mp
    (isSome_mapM fun entry hentry =>
      isSome_attributeEntry_of_holds hkind (hkeys entry hentry)
        (hvalues entry hentry)) with ⟨pairs, hpairs⟩
  have hresults : (entries.map fun entry =>
      Data.pair (.scalar entry.1) entry.2).mapM (fun x =>
        ((Pattern.pair innerKey inner).bindTo x env).bind fun inner =>
          Expr.eval inner
            (.pair (.method (.name innerKey) .toString []) body)) =
        some (pairs.map entryData) := by
    rw [List.mapM_map, mapM_map_result (f := kind.attributeEntry?)
      (k := entryData), hpairs]
    · rfl
    · intro entry hentry
      have hbuilt := eval_convertKind (hvalues entry hentry)
        (reads_ref (eval_bound inner entry.2
          ((innerKey, .scalar entry.1) :: env))) hbody
      have hinnerKey : (Expr.name innerKey).eval
          ((inner, entry.2) :: (innerKey, .scalar entry.1) :: env) =
            some (.scalar entry.1) := by
        rw [Expr.eval, Environment.lookup_cons_ne (by decide),
          Environment.lookup_cons_self]
      rw [Function.comp_apply, Pattern.bindTo, Option.bind_some, Expr.eval,
        Expr.eval, hinnerKey, Option.bind_some, Data.invoke, hbuilt,
        Kind.attributeEntry?]
      cases entry.1.text? with
      | none => rfl
      | some text => cases kind.attribute? entry.2 <;> rfl
  rw [eval_call (eval_gathered hvalue rfl hresults), Data.apply,
    AttributeForm.build?,
    mapM_map_inverse (f := entryData) (g := Data.asEntry?) (fun _ => rfl),
    FieldType.attribute?, hpairs]

theorem eval_convert {s : Schema} {type : FieldType} {d : Data}
    (hd : s.HoldsValue type d) {env : Environment} {value : Value}
    (hvalue : value.Reads env d) {e : Expr}
    (he : value.convert type = some e) :
    e.eval env = (type.attribute? d).map .value := by
  have hkind : type.valueKind.message? = none := by
    have hsome := isSome_convert type value
    rw [he, FieldType.isAttributeType, FieldType.messageTarget] at hsome
    exact Option.isNone_iff_eq_none.mp hsome.symm
  cases type with
  | single kind => exact eval_convertKind hd hvalue he
  | list kind =>
      rcases hd with ⟨items, rfl, hitems⟩
      exact eval_convert_list hitems hkind hvalue.expr he
  | map key kind =>
      rcases hd with ⟨entries, rfl, hkeys, hvalues⟩
      exact eval_convert_map (fun entry hentry => (hkeys entry hentry).2)
        hvalues hkind hvalue.expr he

end Value

end AccessChecks
