import BitSchema.Proofs.ByteCopies
import BitSchema.Proofs.SilentLabels

/-!
# What is written for types

Labels do not show in types (`Dialect.typeText_silent`), in comments and sizes at the end of lines, or in the
statements that copy bytes (`Dialect.messageStatements_silent`): a copy holds the type of its leaf, and apart from the
labels of that type the copies of a relabelled message are those of the message.
-/

namespace BitSchema

open List

variable {ρ : Relabeling} {env : Env}

@[simp] theorem Ty.isA_relabel (t : Ty) (k : Kind) : (t.relabel ρ).isA k = t.isA k := by
  cases t with
  | named d => exact Def.isA_relabel d k
  | _ => rfl

@[simp] theorem Ty.nbytes_relabel (t : Ty) : (t.relabel ρ).nbytes = t.nbytes := by
  simp [Ty.nbytes]

namespace Def

@[simp] theorem nbytes_relabel (d : Def) : (d.relabel ρ).nbytes = d.nbytes := by
  simp [nbytes]

@[simp] theorem ext_relabel (d : Def) : (d.relabel ρ).ext = d.ext := by
  cases d with
  | typeAlias h target =>
    cases target with
    | named e => cases e <;> rfl
    | _ => rfl
  | _ => rfl

@[simp] theorem ty?_relabel (d : Def) : (d.relabel ρ).ty? = d.ty?.map (Ty.relabel ρ) := by
  cases d <;> rfl

@[simp] theorem ty?_getD_relabel (d : Def) : (d.relabel ρ).ty?.getD default = (d.ty?.getD default).relabel ρ := by
  cases d <;> rfl

end Def

/-! ### Types -/

namespace Dialect

variable (l : Dialect)

@[simp] theorem integerBits_relabel (t : Ty) : integerBits (t.relabel ρ) = integerBits t := by
  simp [integerBits]

@[simp] theorem uintType_relabel (t : Ty) : l.uintType (t.relabel ρ) = l.uintType t := by
  cases l <;> simp [uintType]

@[simp] theorem intType_relabel (t : Ty) : l.intType (t.relabel ρ) = l.intType t := by
  cases l <;> simp [intType]

section

variable [Fact ρ.Silent] [Fact env.Apart]

@[simp] theorem messageType_silent (d : Def) : l.messageType (env.relabel ρ) (d.relabel ρ) = l.messageType env d := by
  simp [messageType, ownName]

@[simp] theorem definedType_silent (d : Def) : l.definedType (env.relabel ρ) (d.relabel ρ) = l.definedType env d := by
  cases d with
  | enum h o cap ms => exact name_silent l (.enum h o cap ms) none
  | message h ext ms => exact messageType_silent l (.message h ext ms)
  | typeAlias h target => exact name_silent l (.typeAlias h target) none
  | _ => rfl

/-- **Types are written the same.** -/
@[simp] theorem typeText_silent (name : Option String) (t : Ty) :
    l.typeText (env.relabel ρ) name (t.relabel ρ) = l.typeText env name t := by
  induction t using Ty.layoutInduction generalizing name with
  | unknown o missing => rfl
  | bool o => rfl
  | byte o => rfl
  | uint o cap => exact uintType_relabel l (.uint o cap)
  | int o cap => exact intType_relabel l (.int o cap)
  | array o element cap ext ih =>
    cases l with
    | neutral => rfl
    | c =>
      cases name with
      | none => rfl
      | some n => simp only [Ty.relabel, typeText, ih]
    | go => simp only [Ty.relabel, typeText, ih]
    | python =>
      cases element with
      | byte o => rfl
      | _ => exact congrArg (fun x => do return "List[" ++ (← x) ++ "]") (ih none)
  | typeAlias h target ih => exact definedType_silent l (.typeAlias h target)
  | enum h o cap ms => exact definedType_silent l (.enum h o cap ms)
  | message h ext ms ih => exact definedType_silent l (.message h ext ms)
  | other d hd => exact definedType_silent l d

end

/-- A constant whose kind of value is left open has no type, and is described by its name and value. -/
theorem constantTypeOf_none (described : String) (h : Header) (v : Literal) :
    l.constantTypeOf (.ok described) (.named (.constant h none v)) =
      .error (.internal ("got unexpected constant type " ++ described)) := rfl

theorem constantTypeOf_some (described : String) (h : Header) (k : LiteralKind) (v : Literal) :
    l.constantTypeOf (.ok described) (.named (.constant h (some k) v)) = l.valueType k := rfl

theorem constantType_relabel (env : Env) (h : Header) (k : Option LiteralKind) (v : Literal) :
    l.constantType (env.relabel ρ) (.named ((Def.constant h k v).relabel ρ)) =
      l.constantType env (.named (.constant h k v)) := by
  cases k with
  | none =>
    have hshown : (env.relabel ρ).shownNode (.named ((Def.constant h none v).relabel ρ)) =
        env.shownNode (.named (.constant h none v)) := Def.shown_relabel (.constant h none v)
    rw [constantType, constantType, hshown, Def.relabel, constantTypeOf_none, constantTypeOf_none]
  | some k => rw [constantType, constantType, Def.relabel, constantTypeOf_some, constantTypeOf_some]

end Dialect

/-! ### Lines -/

namespace Line

variable [Fact ρ.Silent]

@[simp] theorem contents_silent (d : Def) :
    ((d.relabel ρ).header.comments.map fun c => commentContent c.source) =
      d.header.comments.map fun c => commentContent c.source := by
  have h := congrArg (List.map commentContent) ((Fact.out : ρ.Silent).comments d.header.comments)
  rw [map_map, map_map] at h
  rw [Def.header_relabel]
  exact h

/-- **Comments are kept.** -/
@[simp] theorem comments_silent (d : Def) (indent : Option Int) : comments (d.relabel ρ) indent = comments d indent := by
  have h := congrArg (List.map fun content => Line.comment content indent) (contents_silent (ρ := ρ) d)
  rw [map_map, map_map] at h
  exact h

@[simp] theorem docOf_silent (d : Def) (indent : Option Int) : docOf (d.relabel ρ) indent = docOf d indent :=
  congrArg (Line.doc · indent) (contents_silent d)

@[simp] theorem bitsOf_silent (d : Def) : bitsOf (env.relabel ρ) (d.relabel ρ) = bitsOf env d := by
  refine congrArg Line.bits ?_
  cases d with
  | enumField h v =>
    show ((env.relabel ρ).enumOf ((Def.enumField h v).relabel ρ)).map Def.nbits =
      (env.enumOf (.enumField h v)).map Def.nbits
    rw [(Env.ownerOf_silent _).2]
    cases env.enumOf (.enumField h v) with
    | error f => rfl
    | ok e => exact congrArg Except.ok (Def.nbits_relabel e)
  | field h t n => exact congrArg Except.ok (Ty.nbits_relabel t)
  | _ => exact congrArg Except.ok (Def.nbits_relabel _)

end Line

/-! ### Copies -/

/-- A copy whose leaf has a relabelled type. -/
def ByteCopy.relabel (ρ : Relabeling) (c : ByteCopy) : ByteCopy := { c with ty := c.ty.relabel ρ }

theorem ByteCopy.ofChunk_relabel (packing : Bool) (t : Ty) (route : Route) (i j c : Int) :
    ofChunk packing (t.relabel ρ) route i j c = (ofChunk packing t route i j c).map (ByteCopy.relabel ρ) := by
  unfold ofChunk pack unpack
  cases packing with
  | true =>
    rw [if_pos rfl, if_pos rfl]
    cases Wire.maskOf (i.fmod 8) c with
    | error f => rfl
    | ok mask => cases intEighth i <;> cases intEighth j <;> rfl
  | false =>
    rw [if_neg Bool.false_ne_true, if_neg Bool.false_ne_true]
    cases Wire.maskOf (j.fmod 8) c with
    | error f => rfl
    | ok mask => cases intEighth i <;> cases intEighth j <;> rfl

namespace Listing

def relabel (ρ : Relabeling) (x : Listing) : Listing := fun i =>
  (x i).map fun r => (r.1.map (ByteCopy.relabel ρ), r.2)

theorem relabel_append (x y : Listing) : (x.append y).relabel ρ = (x.relabel ρ).append (y.relabel ρ) := by
  funext i
  simp only [relabel, append]
  cases x i with
  | error f => rfl
  | ok first =>
    simp only [bind, Except.bind, Except.map]
    cases y first.2 with
    | error f => rfl
    | ok rest => exact congrArg Except.ok (congrArg (·, rest.2) map_append)

end Listing

namespace Copier

theorem leafFrom_relabel (packing : Bool) (t : Ty) (n : Nat) (route : Route) (fuel j : Nat) :
    leafFrom packing (t.relabel ρ) n route fuel j = (leafFrom packing t n route fuel j).relabel ρ := by
  induction fuel generalizing j with
  | zero => rfl
  | succ fuel ih =>
    funext i
    simp only [leafFrom, Listing.relabel]
    split
    · rw [ByteCopy.ofChunk_relabel, ih]
      cases ByteCopy.ofChunk packing t route i j (Wire.chunkSize i j n).toNat with
      | error f => rfl
      | ok copy =>
        simp only [bind, Except.bind, Except.map, Listing.relabel]
        cases leafFrom packing t n route fuel (j + (Wire.chunkSize i j n).toNat)
          (i + (Wire.chunkSize i j n).toNat) <;> rfl
    · rfl

theorem leaf_relabel (l : Dialect) (packing : Bool) (t : Ty) (route : Route) :
    leaf l packing (t.relabel ρ) route = (leaf l packing t route).relabel ρ := by
  funext i
  unfold leaf
  rw [Ty.nbits_relabel, leafFrom_relabel]
  simp only [Listing.relabel]
  split
  · cases l.writesCopies <;> rfl
  · rfl

theorem elementsFrom_relabel {element element' : Copier} (h : ∀ route, element' route = (element route).relabel ρ)
    (route : Route) (count k : Nat) :
    elementsFrom element' route count k = (elementsFrom element route count k).relabel ρ := by
  induction count generalizing k with
  | zero => rfl
  | succ count ih => rw [elementsFrom, elementsFrom, h, ih, Listing.relabel_append]

theorem field_relabel (l : Dialect) (f : Def) {copier copier' : Copier}
    (h : ∀ route, copier' route = (copier route).relabel ρ) (route : Route) :
    field l (f.relabel ρ) copier' route = (field l f copier route).relabel ρ := by
  funext i
  simp only [field, Listing.relabel, Dialect.fieldName_relabel, Def.number_relabel, h]
  cases l.fieldName f <;> rfl

theorem fields_relabel (l : Dialect) {fs : List Field} {copier : Ty → Copier}
    (h : ∀ f ∈ fs, ∀ route, copier (f.ty.relabel ρ) route = (copier f.ty route).relabel ρ) (route : Route) :
    fields l ((fs.map (Field.relabel ρ)).map fun f => (Def.ofField f, copier f.ty)) route =
      (fields l (fs.map fun f => (Def.ofField f, copier f.ty)) route).relabel ρ := by
  induction fs with
  | nil => rfl
  | cons f fs ih =>
    rw [map_cons, map_cons, map_cons, fields, fields, Listing.relabel_append,
      ih fun g hg => h g (mem_cons_of_mem _ hg)]
    exact congrArg (Listing.append · _) (field_relabel l (Def.ofField f) (h f (mem_cons_self ..)) route)

end Copier

def TypePlace.relabel (ρ : Relabeling) : TypePlace → TypePlace
  | .target owner => .target (owner.relabel ρ)
  | p => p

theorem TypePlace.leaf_relabel (l : Dialect) (packing : Bool) (p : TypePlace) (t : Ty) (route : Route) :
    (p.relabel ρ).leaf l packing (t.relabel ρ) route = (p.leaf l packing t route).relabel ρ := by
  cases p <;> exact Copier.leaf_relabel l packing _ route

theorem copier_message (l : Dialect) (packing : Bool) (h : Header) (ext : Bool) (ms : Members) :
    (Def.message h ext ms).copier l packing .field =
      Copier.fields l ((orderedFields ms).map fun f => (Def.ofField f, f.ty.copier l packing .field)) := by
  show Copier.fields l ((byNumber (fieldCopiers l packing ms)).map (·.2)) = _
  rw [fieldCopiers_eq, byNumber_map_fieldsOf, map_map]
  rfl

/-- **The copies of a relabelled type** are those of the type, apart from labels. -/
theorem Ty.copier_silent [Fact ρ.Silent] (l : Dialect) (packing : Bool) (t : Ty) (p : TypePlace) (route : Route) :
    (t.relabel ρ).copier l packing (p.relabel ρ) route = (t.copier l packing p route).relabel ρ := by
  induction t using Ty.layoutInduction generalizing p route with
  | unknown o missing => cases p <;> rfl
  | bool o => exact p.leaf_relabel l packing (.bool o) route
  | byte o => exact p.leaf_relabel l packing (.byte o) route
  | uint o cap => exact p.leaf_relabel l packing (.uint o cap) route
  | int o cap => exact p.leaf_relabel l packing (.int o cap) route
  | array o element cap ext ih =>
    have helements := Copier.elementsFrom_relabel (fun route => ih .element route) route cap 0
    cases p with
    | element => rfl
    | _ => exact helements
  | typeAlias h target ih =>
    have htarget := ih (.target (.named (.typeAlias h target))) route
    cases p with
    | target owner => rfl
    | _ => exact htarget
  | enum h o cap ms => exact p.leaf_relabel l packing (.named (.enum h o cap ms)) route
  | message h ext ms ih =>
    have hfields : ((Def.message h ext ms).relabel ρ).copier l packing .field route =
        ((Def.message h ext ms).copier l packing .field route).relabel ρ := by
      have hordered : orderedFields (ρ.arrange (membersRelabel ρ ms)) = (orderedFields ms).map (Field.relabel ρ) :=
        Def.orderedFields_relabel (.message h ext ms)
      rw [Def.relabel, copier_message, copier_message, hordered]
      exact Copier.fields_relabel l (fun f hf route => ih f (mem_orderedFields.1 hf) .field route) route
    cases p with
    | target owner => rfl
    | _ => exact hfields
  | other d hd => cases p <;> cases d <;> first | rfl | cases hd

namespace Dialect

variable (l : Dialect)

@[simp] theorem packStatement_relabel (c : ByteCopy) : l.packStatement (c.relabel ρ) = l.packStatement c := by
  obtain ⟨route, ty, buffer, byte, shift, mask, offset⟩ := c
  cases l with
  | go =>
    -- only truth values are converted, perhaps behind an alias
    cases ty with
    | named d =>
      cases d with
      | typeAlias h target => cases target <;> rfl
      | _ => rfl
    | _ => rfl
  | _ => rfl

section

variable [Fact ρ.Silent] [Fact env.Apart]

@[simp] theorem unpackStatement_silent (c : ByteCopy) :
    l.unpackStatement (env.relabel ρ) (c.relabel ρ) = l.unpackStatement env c := by
  obtain ⟨route, ty, buffer, byte, shift, mask, offset⟩ := c
  cases l with
  | go =>
    simp only [unpackStatement, ByteCopy.relabel, typeText_silent]
    cases ty with
    | named d =>
      cases d with
      | typeAlias h target => cases target <;> rfl
      | _ => rfl
    | _ => rfl
  | _ => rfl

@[simp] theorem statement_silent (packing : Bool) (c : ByteCopy) :
    l.statement (env.relabel ρ) packing (c.relabel ρ) = l.statement env packing c := by
  simp [statement]

/-- **The statements of a message** do not show labels. -/
@[simp] theorem messageStatements_silent (packing : Bool) (d : Def) :
    l.messageStatements (env.relabel ρ) packing (d.relabel ρ) = l.messageStatements env packing d := by
  unfold messageStatements messageCopies
  cases l.messageVariable with
  | error f => rfl
  | ok place =>
    have hlist := congrFun (Ty.copier_silent (ρ := ρ) l packing (.named d) .field ⟨place, []⟩) 0
    simp only [Ty.relabel, Ty.copier, TypePlace.relabel, Listing.relabel] at hlist
    simp only [bind, Except.bind, hlist]
    cases d.copier l packing .field ⟨place, []⟩ 0 with
    | error f => rfl
    | ok r =>
      simp only [Except.map, pure, Except.pure, mapM_map, Function.comp_def, statement_silent]

end

end Dialect

end BitSchema
