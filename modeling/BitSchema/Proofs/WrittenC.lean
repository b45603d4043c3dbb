import BitSchema.Proofs.WrittenFiles
import BitSchema.Target.CSource

/-!
# C files of relabelled schemas

The header and the source of a relabelled schema file are those of the schema file (`CHeader.block_silent`,
`CSource.block_silent`): each part that is written looks at a definition only through its name, its comments, its size
and the types it mentions.
-/

namespace BitSchema

variable {ρ : Relabeling} {env : Env} [Fact ρ.Silent] [Fact env.Apart]

/-! ### Calls to the library -/

namespace CLibrary

open Dialect

omit [Fact ρ.Silent] in
theorem messageDescriptor_silent (d : Def) (fields : String) :
    messageDescriptor (d.relabel ρ) fields = messageDescriptor d fields := by
  unfold messageDescriptor
  rw [Def.ext_relabel, Def.length_fields_relabel, Def.nbits_relabel]

@[simp] theorem functionName_silent (start : String) (d : Def) :
    functionName start (env.relabel ρ) (d.relabel ρ) = functionName start env d := by
  simp [functionName, ownName]

@[simp] theorem arrayFunctionName_silent (start word : String) (d : Def) :
    arrayFunctionName start word (env.relabel ρ) (d.relabel ρ) = arrayFunctionName start word env d := by
  cases d with
  | field h t number =>
    have hmessage := (@Env.ownerOf_silent ρ env _ (.field h t number)).1
    simp only [Def.relabel] at hmessage
    simp only [Def.relabel, arrayFunctionName, hmessage]
    cases env.messageOf (.field h t number) with
    | error f => rfl
    | ok message => simp [Except.map, bind, Except.bind, ownName]
  | typeAlias h target =>
    have hname := @name_silent ρ env .c _ _ (.typeAlias h target) none
    simp only [Def.relabel] at hname
    simp only [Def.relabel, arrayFunctionName, ownName, hname]
  | _ => rfl

theorem messageCall_silent (d : Def) : messageCall (env.relabel ρ) (d.relabel ρ) = messageCall env d := by
  simp [messageCall]

theorem aliasCall_silent (d : Def) : aliasCall (env.relabel ρ) (d.relabel ρ) = aliasCall env d := by
  simp [aliasCall, ownName]

theorem enumCall_silent (d : Def) : enumCall (env.relabel ρ) (d.relabel ρ) = enumCall env d := by
  simp [enumCall, enumType]

theorem arrayCall_silent (t element : Ty) (cap : Nat) (d : Def) :
    arrayCall (env.relabel ρ) (t.relabel ρ) (element.relabel ρ) cap (d.relabel ρ) = arrayCall env t element cap d := by
  simp [arrayCall, arrayProcessorName, arrayJsonName]

/-- **Types are described to the library by the same calls.** -/
theorem typeCall_silent (t : Ty) (d : Option Def) :
    typeCall (env.relabel ρ) (t.relabel ρ) (d.map (Def.relabel ρ)) = typeCall env t d := by
  cases t with
  | int o cap =>
    show intCall ((Ty.int o cap).relabel ρ) = intCall (.int o cap)
    simp [intCall]
  | uint o cap =>
    show uintCall ((Ty.uint o cap).relabel ρ) = uintCall (.uint o cap)
    simp [uintCall]
  | array o element cap ext =>
    cases d with
    | none => rfl
    | some d => exact arrayCall_silent (.array o element cap ext) element cap d
  | named e =>
    cases e with
    | enum h o cap ms => exact enumCall_silent (.enum h o cap ms)
    | typeAlias h target => exact aliasCall_silent (.typeAlias h target)
    | message h ext ms => exact messageCall_silent (.message h ext ms)
    | _ => rfl
  | _ => rfl

@[simp] theorem typeCall_some_silent (t : Ty) (d : Def) :
    typeCall (env.relabel ρ) (t.relabel ρ) (some (d.relabel ρ)) = typeCall env t (some d) :=
  typeCall_silent t (some d)

@[simp] theorem aliasDescriptor_silent (d : Def) :
    aliasDescriptor (env.relabel ρ) (d.relabel ρ) = aliasDescriptor env d := by
  unfold aliasDescriptor
  cases h : d.ty? <;> simp [h]

@[simp] theorem arrayDescriptor_silent (t : Ty) :
    arrayDescriptor (env.relabel ρ) (t.relabel ρ) = arrayDescriptor env t := by
  cases t with
  | array o element cap ext =>
    have hcall := @typeCall_silent ρ env _ _ element none
    simp only [Option.map_none] at hcall
    simp only [Ty.relabel, arrayDescriptor, hcall]
  | _ => rfl

end CLibrary

/-! ### The header -/

namespace CHeader

open Dialect

theorem constant_silent (d : Def) : constant (env.relabel ρ) (d.relabel ρ) = constant env d := by
  simp [constant, ownName]

theorem typeAlias_silent (d : Def) (target : Ty) :
    typeAlias (env.relabel ρ) (d.relabel ρ) (target.relabel ρ) = typeAlias env d target := by
  simp only [typeAlias, ownName, name_silent, typeText_silent, Line.comments_silent, Line.bitsOf_silent]
  cases target <;> rfl

@[simp] theorem enumField_silent (d : Def) : enumField (env.relabel ρ) (d.relabel ρ) = enumField env d := by
  simp [enumField, ownName]

theorem enum_silent (d : Def) (type : Ty) :
    enum (env.relabel ρ) (d.relabel ρ) (type.relabel ρ) = enum env d type := by
  simp [enum, enumName, Function.comp_def]

@[simp] theorem field_silent (d : Def) (t : Ty) :
    field (env.relabel ρ) (d.relabel ρ) (t.relabel ρ) = field env d t := by
  simp only [field, fieldName_relabel, typeText_silent, Line.comments_silent, Line.bitsOf_silent]
  cases t <;> rfl

@[simp] theorem libraryFunctions_silent (d : Def) :
    libraryFunctions (env.relabel ρ) (d.relabel ρ) = libraryFunctions env d := by
  simp [libraryFunctions]

section

variable {p : OutputPlan} [Fact p.env.Apart]

theorem message_silent (d : Def) : message (p.relabel ρ) (d.relabel ρ) = message p d := by
  simp [message, ownName]

theorem types_silent (d : Def) : types (p.relabel ρ) (d.relabel ρ) = types p d := by
  cases d with
  | typeAlias h target => exact congrArg (some <$> ·) (typeAlias_silent (.typeAlias h target) target)
  | constant h k v => exact congrArg (some <$> ·) (constant_silent (.constant h k v))
  | enum h o cap ms => exact congrArg (some <$> ·) (enum_silent (.enum h o cap ms) (.uint o cap))
  | message h ext ms => exact congrArg (some <$> ·) (message_silent (.message h ext ms))
  | _ => rfl

@[simp] theorem userFunctions_silent (d : Def) : userFunctions (p.relabel ρ) (d.relabel ρ) = userFunctions p d := by
  simp only [userFunctions, OutputPlan.env_relabel, OutputPlan.optimized_relabel, ownName, name_silent,
    messageType_silent]
  rfl

/-- **The header is the same.** -/
theorem block_silent : block (p.relabel ρ) = block p := by
  have hmessage {d : Def} (h : d.isA .message = true) : d.isA .messageField = false :=
    Def.isA_messageField_eq_false rfl h
  have hcallback {d : Def} (h : (d.isA .message || d.isA .typeAlias) = true) : d.isA .messageField = false := by
    rcases Bool.or_eq_true_iff.1 h with h | h
    · exact hmessage h
    · exact Def.isA_messageField_eq_false rfl h
  refine Def.ownDefinitions_bind_silent (fun ds => ?_) (fun ds => ?_) fun ds _ => ?_
  · simp only [filter_nonfields (fun _ => hmessage), filter_nonfields (fun _ => hcallback),
      Block.forDefinitions_nonfields (types p) fun _ _ _ => rfl]
  · simp only [filter_nonfields (fun _ => hmessage), filter_nonfields (fun _ => hcallback),
      Block.forDefinitions_nonfields (types (p.relabel ρ)) fun _ _ _ => rfl]
  · have htypes := Block.forDefinitions_map (ρ := ρ) fun d (_ : d ∈ nonfields ds) => types_silent (p := p) d
    simp [htypes, guard, imports, Relabeling.member, List.filter_map, Function.comp_def]

end

end CHeader

/-! ### The source -/

namespace CSource

open CLibrary Dialect

theorem arrayFunction_silent (t : Ty) (signature call : String) :
    arrayFunction (env.relabel ρ) (t.relabel ρ) signature call = arrayFunction env t signature call := by
  simp [arrayFunction]

@[simp] theorem arrayFunctions_silent (t : Ty) (d : Def) :
    arrayProcessor (env.relabel ρ) (t.relabel ρ) (d.relabel ρ) = arrayProcessor env t d ∧
      arrayFormatter (env.relabel ρ) (t.relabel ρ) (d.relabel ρ) = arrayFormatter env t d := by
  cases t with
  | array o element cap ext =>
    have hfunction := @arrayFunction_silent ρ env _ _ (.array o element cap ext)
    simp only [Ty.relabel] at hfunction
    simp [Ty.relabel, arrayProcessor, arrayFormatter, arrayProcessorName, arrayJsonName, hfunction]
  | _ => exact ⟨rfl, rfl⟩

theorem typeAlias_silent (d : Def) (target : Ty) :
    typeAlias (env.relabel ρ) (d.relabel ρ) (target.relabel ρ) = typeAlias env d target := by
  simp [typeAlias, aliasFunction]

@[simp] theorem fieldDescriptor_silent (d : Def) (t : Ty) (position : Nat) :
    fieldDescriptor (env.relabel ρ) (d.relabel ρ) (t.relabel ρ) position = fieldDescriptor env d t position := by
  simp [fieldDescriptor]

@[simp] theorem fieldsInit_silent (d : Def) : fieldsInit (env.relabel ρ) (d.relabel ρ) = fieldsInit env d := by
  simp only [fieldsInit, fieldsInitName, functionName_silent, messageType_silent, Def.sortedFields_relabel,
    List.zipIdx_map,
    List.mapM_map, Function.comp_def, Prod.map, id, Def.ty?_getD_relabel, fieldDescriptor_silent]

@[simp] theorem descriptorFunction_silent (d : Def) (signature call : String) :
    descriptorFunction (env.relabel ρ) (d.relabel ρ) signature call = descriptorFunction env d signature call := by
  simp only [descriptorFunction, messageType_silent, fieldsInitName, functionName_silent, messageDescriptor_silent,
    Def.length_fields_relabel]

theorem message_silent (d : Def) : message (env.relabel ρ) (d.relabel ρ) = message env d := by
  simp [message, ownName]

theorem plainMessage_silent (d : Def) : plainMessage (env.relabel ρ) (d.relabel ρ) = plainMessage env d := by
  simp [plainMessage, ownName]

section

variable {p : OutputPlan} [Fact p.env.Apart]

theorem functions_silent (d : Def) : functions (p.relabel ρ) (d.relabel ρ) = functions p d := by
  cases d with
  | typeAlias h target =>
    have halias := @typeAlias_silent ρ p.env _ _ (.typeAlias h target) target
    simp only [Def.relabel] at halias
    simp only [Def.relabel, functions, OutputPlan.env_relabel, OutputPlan.optimized_relabel, halias]
  | message h ext ms =>
    have hmessage := @message_silent ρ p.env _ _ (.message h ext ms)
    have hplain := @plainMessage_silent ρ p.env _ _ (.message h ext ms)
    have hincludes := OutputPlan.includes_relabel (ρ := ρ) p (.message h ext ms)
    simp only [Def.relabel] at hmessage hplain hincludes
    simp only [Def.relabel, functions, OutputPlan.env_relabel, OutputPlan.optimized_relabel, hmessage, hplain, hincludes]
  | _ => rfl

/-- **The source is the same.** -/
theorem block_silent : block (p.relabel ρ) = block p := by
  refine Def.ownDefinitions_bind_silent (fun ds => ?_) (fun ds => ?_) fun ds _ => ?_
  · rw [Block.forDefinitions_nonfields (functions p) fun _ _ _ => rfl]
  · rw [Block.forDefinitions_nonfields (functions (p.relabel ρ)) fun _ _ _ => rfl]
  · have hfunctions := Block.forDefinitions_map (ρ := ρ) fun d (_ : d ∈ nonfields ds) => functions_silent (p := p) d
    simp [hfunctions]

end

end CSource

end BitSchema
