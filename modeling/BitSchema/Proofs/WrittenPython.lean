import BitSchema.Proofs.WrittenFiles

/-!
# Python modules of relabelled schemas

The Python module of a relabelled schema file is that of the schema file (`PythonModule.block_silent`).  The schema file
has to be well-formed: a complaint about a type without a default value would describe the type by its labels.
-/

namespace BitSchema

variable {ρ : Relabeling} {env : Env}

/-! ### What is behind a type -/

namespace PythonModule

open Dialect

mutual

theorem coreOf_relabel (depth : Nat) :
    ∀ t : Ty, coreOf depth (t.relabel ρ) = ((coreOf depth t).1.relabel ρ, (coreOf depth t).2)
  | .array _ element _ _ => coreOf_relabel (depth + 1) element
  | .named d => coreOfDef_relabel depth d
  | .unknown _ _ | .bool _ | .byte _ | .uint _ _ | .int _ _ => rfl

theorem coreOfDef_relabel (depth : Nat) :
    ∀ d : Def, coreOfDef depth (d.relabel ρ) = ((coreOfDef depth d).1.relabel ρ, (coreOfDef depth d).2)
  | .typeAlias _ target => coreOf_relabel depth target
  | .option _ _ _ | .constant _ _ _ | .enum _ _ _ _ | .enumField _ _ | .message _ _ _ | .field _ _ _ | .proto _ _ => rfl

end

@[simp] theorem getByteCase_relabel (d : Def) (t : Ty) : getByteCase (d.relabel ρ) (t.relabel ρ) = getByteCase d t := by
  simp only [getByteCase, coreOf_relabel, Ty.isA_relabel, fieldName_relabel, Def.number_relabel]
  generalize coreOf 0 t = behind
  obtain ⟨core, depth⟩ := behind
  cases core <;> rfl

@[simp] theorem accessorCase_relabel (d : Def) (t : Ty) :
    accessorCase (d.relabel ρ) (t.relabel ρ) = accessorCase d t := by
  simp only [accessorCase, coreOf_relabel, Ty.isA_relabel, fieldName_relabel, Def.number_relabel]

end PythonModule

variable [Fact ρ.Silent] [Fact env.Apart]

/-! ### Calls to the library -/

namespace PythonLibrary

open Dialect

@[simp] theorem aliasFactory_silent (d : Def) : aliasFactory (env.relabel ρ) (d.relabel ρ) = aliasFactory env d :=
  derivedName_silent .python d _ none

theorem messageFactory_silent (d : Def) : messageFactory (env.relabel ρ) (d.relabel ρ) = messageFactory env d :=
  messageType_silent .python d

@[simp] theorem processorName_silent (d : Def) : processorName (env.relabel ρ) (d.relabel ρ) = processorName env d :=
  derivedName_silent .python d _ none

/-- **Well-formed types have the same default values.** -/
theorem defaultValue_silent {t : Ty} (ht : t.WellFormed) :
    defaultValue (env.relabel ρ) (t.relabel ρ) = defaultValue env t := by
  induction t using Ty.layoutInduction with
  | unknown o missing => exact ht.elim
  | array o element cap ext ih =>
    have helement := ih ht.2.2.2
    cases element with
    | byte o => rfl
    | _ =>
      exact congrArg (fun inner => do
        let value ← inner
        return s!"[{value} for _ in range({cap})]") helement
  | typeAlias h target ih =>
    exact congrArg (fun x => do return (← x) ++ "()") (@aliasFactory_silent ρ env _ _ (.typeAlias h target))
  | enum h o cap ms => rfl
  | message h ext ms ih =>
    exact congrArg (fun x => do return (← x) ++ "()") (@messageFactory_silent ρ env _ _ (.message h ext ms))
  | other d hd => rw [ht.1] at hd; cases hd
  | _ => rfl

theorem fieldDefault_silent {t : Ty} (ht : t.WellFormed) :
    fieldDefault (env.relabel ρ) (t.relabel ρ) = fieldDefault env t := by
  cases t with
  | unknown o missing => exact ht.elim
  | array o element cap ext =>
    have hvalue := @defaultValue_silent ρ env _ _ _ ht
    exact congrArg (fun x => madeBy <$> do return "lambda: " ++ (← x)) hvalue
  | named d =>
    cases d with
    | message h ext ms => exact congrArg (madeBy <$> ·) (@messageFactory_silent ρ env _ _ (.message h ext ms))
    | typeAlias h target => exact congrArg (madeBy <$> ·) (@aliasFactory_silent ρ env _ _ (.typeAlias h target))
    | enum h o cap ms => rfl
    | _ => cases ht.1
  | _ => rfl

@[simp] theorem processor_silent (t : Ty) : processor (env.relabel ρ) (t.relabel ρ) = processor env t := by
  induction t using Ty.layoutInduction with
  | array o element cap ext ih => simp only [Ty.relabel, processor, ih]
  | typeAlias h target ih =>
    exact congrArg (fun x => do return (← x) ++ "()") (@processorName_silent ρ env _ _ (.typeAlias h target))
  | enum h o cap ms =>
    exact congrArg (fun x => do return (← x) ++ "()") (@processorName_silent ρ env _ _ (.enum h o cap ms))
  | message h ext ms ih =>
    exact congrArg (fun x => do return (← x) ++ "().bp_processor()")
      (@name_silent ρ env .python _ _ (.message h ext ms) none)
  | other d hd => cases d <;> first | rfl | cases hd
  | _ => rfl

end PythonLibrary

namespace PythonModule

open Dialect PythonLibrary

/-! ### Aliases, constants and enums -/

theorem typeAlias_silent (d : Def) {target : Ty} (ht : target.WellFormed) :
    typeAlias (env.relabel ρ) (d.relabel ρ) (target.relabel ρ) = typeAlias env d target := by
  simp [typeAlias, ownName, defaultValue_silent ht]

theorem constant_silent (h : Header) (k : Option LiteralKind) (v : Literal) :
    constant (env.relabel ρ) ((Def.constant h k v).relabel ρ) = constant env (.constant h k v) := by
  simp [constant, ownName, constantType_relabel]

@[simp] theorem enumField_silent (d : Def) : enumField (env.relabel ρ) (d.relabel ρ) = enumField env d := by
  simp only [enumField, ownName, name_silent, Env.ownerOf_silent, Def.value_relabel, Line.comments_silent]
  cases env.enumOf d with
  | error f => rfl
  | ok e => simp only [Except.map, bind, Except.bind, enumType, name_silent]

@[simp] theorem nameEntry_silent (d : Def) : nameEntry (env.relabel ρ) (d.relabel ρ) = nameEntry env d := by
  simp [nameEntry, ownName]

theorem enum_silent (d : Def) (type : Ty) :
    enum (env.relabel ρ) (d.relabel ρ) (type.relabel ρ) = enum env d type := by
  simp [enum, enumName, nameMap, uintProcessor, Function.comp_def]

/-! ### Fields of messages -/

@[simp] theorem setByteCase_silent (d : Def) (t : Ty) :
    setByteCase (env.relabel ρ) (d.relabel ρ) (t.relabel ρ) = setByteCase env d t := by
  simp only [setByteCase, coreOf_relabel, Ty.isA_relabel, fieldName_relabel, Def.number_relabel, typeText_silent]
  generalize coreOf 0 t = behind
  obtain ⟨core, depth⟩ := behind
  cases core <;> rfl

theorem field_silent (d : Def) {t : Ty} (ht : t.WellFormed) :
    field (env.relabel ρ) (d.relabel ρ) (t.relabel ρ) = field env d t := by
  simp [field, fieldDefault_silent ht]

/-! ### Messages -/

@[simp] theorem processorMethod_silent (d : Def) :
    processorMethod (env.relabel ρ) (d.relabel ρ) = processorMethod env d := by
  simp [processorMethod]

theorem message_silent {d : Def} (hd : ∀ f ∈ d.sortedFields, (f.ty?.getD default).WellFormed) :
    message (env.relabel ρ) (d.relabel ρ) = message env d := by
  have hfields : (d.forFields fun f t => field (env.relabel ρ) (f.relabel ρ) (t.relabel ρ)) =
    d.forFields (field env) := by
    rw [Def.forFields, ← List.map_id d.sortedFields]
    exact mapM_map_congr fun f hf => field_silent f (hd f hf)
  simp [message, ownName, hfields]

/-! ### The file -/

theorem definition_silent {d : Def} (hd : d.WellFormed) :
    definition (env.relabel ρ) (d.relabel ρ) = definition env d := by
  cases d with
  | typeAlias h target => exact congrArg (some <$> ·) (typeAlias_silent (.typeAlias h target) hd.2)
  | constant h k v => exact congrArg (some <$> ·) (constant_silent h k v)
  | enum h o cap ms => exact congrArg (some <$> ·) (enum_silent (.enum h o cap ms) (.uint o cap))
  | message h ext ms =>
    refine congrArg (some <$> ·) (message_silent (d := .message h ext ms) fun f hf => ?_)
    rw [Def.sortedFields_eq] at hf
    obtain ⟨g, hg, rfl⟩ := List.mem_map.1 hf
    exact (hd.field (mem_orderedFields.1 hg)).2.2
  | _ => rfl

/-- **The Python module is the same.** -/
theorem block_silent {p : OutputPlan} [Fact p.env.Apart] (hfile : p.file.WellFormed) :
    block (p.relabel ρ) = block p := by
  refine Def.ownDefinitions_bind_silent (fun ds => ?_) (fun ds => ?_) fun ds hds => ?_
  · rw [Block.forDefinitions_nonfields (definition p.env) fun _ _ _ => rfl]
  · rw [Block.forDefinitions_nonfields (definition (p.relabel ρ).env) fun _ _ _ => rfl]
  · have hdefinitions := Block.forDefinitions_map (ρ := ρ) fun d (hd : d ∈ nonfields ds) =>
      @definition_silent ρ p.env _ _ d
      (Def.wellFormed_of_mem_ownDefinitions hfile hds (List.mem_filter.1 hd).1)
    simp [hdefinitions, imports, Relabeling.member, Function.comp_def]

end PythonModule

end BitSchema
