import BitSchema.Proofs.WrittenFiles
import BitSchema.Target.GoPackage

/-!
# Go packages of relabelled schemas

The Go file of a relabelled schema file is that of the schema file (`GoPackage.block_silent`).  The methods that move
the bytes of a field ask what is behind the arrays and aliases of its type, which is the same type with other labels
(`GoPackage.coreOf_relabel`).
-/

namespace BitSchema

variable {ρ : Relabeling} {env : Env}

/-! ### What is behind a type -/

namespace GoPackage

open Dialect

def FieldCore.relabel (ρ : Relabeling) (c : FieldCore) : FieldCore :=
  ⟨c.core.relabel ρ, c.via.map (Ty.relabel ρ), c.depth⟩

mutual

theorem coreOf_relabel (via : Option Ty) (depth : Nat) :
    ∀ t : Ty, coreOf (via.map (Ty.relabel ρ)) depth (t.relabel ρ) = (coreOf via depth t).relabel ρ
  | .array _ element _ _ => coreOf_relabel none (depth + 1) element
  | .named d => coreOfDef_relabel via depth d
  | .unknown _ _ | .bool _ | .byte _ | .uint _ _ | .int _ _ => rfl

theorem coreOfDef_relabel (via : Option Ty) (depth : Nat) :
    ∀ d : Def, coreOfDef (via.map (Ty.relabel ρ)) depth (d.relabel ρ) = (coreOfDef via depth d).relabel ρ
  | .typeAlias h target => coreOf_relabel (some (.named (.typeAlias h target))) depth target
  | .option _ _ _ | .constant _ _ _ | .enum _ _ _ _ | .enumField _ _ | .message _ _ _ | .field _ _ _ | .proto _ _ => rfl

end

theorem core_relabel (t : Ty) : coreOf none 0 (t.relabel ρ) = (coreOf none 0 t).relabel ρ := coreOf_relabel none 0 t

@[simp] theorem getByteCase_relabel (d : Def) (t : Ty) : getByteCase (d.relabel ρ) (t.relabel ρ) = getByteCase d t := by
  simp only [getByteCase, core_relabel, FieldCore.relabel, Ty.isA_relabel, fieldName_relabel, Def.number_relabel]
  obtain ⟨core, via, depth⟩ := coreOf none 0 t
  cases core <;> cases via <;> rfl

@[simp] theorem accessorCase_relabel (d : Def) (t : Ty) :
    accessorCase (d.relabel ρ) (t.relabel ρ) = accessorCase d t := by
  simp only [accessorCase, core_relabel, FieldCore.relabel, Ty.isA_relabel, fieldName_relabel, Def.number_relabel]

end GoPackage

variable [Fact ρ.Silent] [Fact env.Apart]

/-! ### Processors -/

namespace GoLibrary

open Dialect

theorem aliasProcessor_silent (d : Def) : aliasProcessor (env.relabel ρ) (d.relabel ρ) = aliasProcessor env d := by
  simp only [aliasProcessor, ownName, name_silent, Def.ty?_relabel]
  cases d.ty? with
  | none => rfl
  | some t =>
    cases t with
    | named e => cases e <;> rfl
    | _ => rfl

theorem enumProcessor_silent (d : Def) : enumProcessor (env.relabel ρ) (d.relabel ρ) = enumProcessor env d := by
  simp [enumProcessor, enumName]

theorem messageProcessor_silent (d : Def) :
    messageProcessor (env.relabel ρ) (d.relabel ρ) = messageProcessor env d := by
  simp [messageProcessor, ownName]

/-- **Types have the same processors.** -/
@[simp] theorem processor_silent (t : Ty) : processor (env.relabel ρ) (t.relabel ρ) = processor env t := by
  induction t using Ty.layoutInduction with
  | array o element cap ext ih => simp only [Ty.relabel, processor, ih]
  | typeAlias h target ih => exact aliasProcessor_silent (.typeAlias h target)
  | enum h o cap ms => exact enumProcessor_silent (.enum h o cap ms)
  | message h ext ms ih => exact messageProcessor_silent (.message h ext ms)
  | other d hd => cases d <;> first | rfl | cases hd
  | _ => rfl

end GoLibrary

namespace GoPackage

open Dialect GoLibrary

/-! ### Aliases, constants and enums -/

theorem aliasType_silent (d : Def) (target : Ty) :
    aliasType (env.relabel ρ) (d.relabel ρ) (target.relabel ρ) = aliasType env d target := by
  simp [aliasType, ownName]

theorem typeAlias_silent (d : Def) (target : Ty) :
    typeAlias (env.relabel ρ) (d.relabel ρ) (target.relabel ρ) = typeAlias env d target := by
  simp only [typeAlias, ownName, name_silent, processor_silent, aliasType_silent]
  cases target with
  | named e => cases e <;> rfl
  | _ => rfl

theorem constant_silent (h : Header) (k : Option LiteralKind) (v : Literal) :
    constant (env.relabel ρ) ((Def.constant h k v).relabel ρ) = constant env (.constant h k v) := by
  simp [constant, ownName, constantType_relabel]

@[simp] theorem enumField_silent (d : Def) (position : Nat) :
    enumField (env.relabel ρ) (d.relabel ρ) position = enumField env d position := by
  simp only [enumField, ownName, name_silent, Env.ownerOf_silent, Def.value_relabel, Line.comments_silent]
  cases env.enumOf d with
  | error f => rfl
  | ok e => simp only [Except.map, bind, Except.bind, enumType, name_silent]

@[simp] theorem enumCase_silent (d : Def) : enumCase (env.relabel ρ) (d.relabel ρ) = enumCase env d := by
  simp [enumCase, ownName]

section

variable {p : OutputPlan} [Fact p.env.Apart]

theorem enum_silent (d : Def) (type : Ty) : enum (p.relabel ρ) (d.relabel ρ) (type.relabel ρ) = enum p d type := by
  simp [enum, enumName, uintProcessor, List.zipIdx_map, Function.comp_def]

end

/-! ### Fields of messages -/

@[simp] theorem setByteCase_silent (d : Def) (t : Ty) :
    setByteCase (env.relabel ρ) (d.relabel ρ) (t.relabel ρ) = setByteCase env d t := by
  have htype (via : Option Ty) (core : Ty) : Dialect.go.typeText (env.relabel ρ) none
      ((via.map (Ty.relabel ρ)).getD (core.relabel ρ)) = Dialect.go.typeText env none (via.getD core) := by
    cases via <;> exact typeText_silent .go none _
  simp only [setByteCase, core_relabel, FieldCore.relabel, Ty.isA_relabel, fieldName_relabel, Def.number_relabel, htype]
  obtain ⟨core, via, depth⟩ := coreOf none 0 t
  cases core <;> cases via <;> rfl

@[simp] theorem field_silent (d : Def) (t : Ty) : field (env.relabel ρ) (d.relabel ρ) (t.relabel ρ) = field env d t := by
  simp [field]

/-! ### Messages -/

@[simp] theorem processorMethod_silent (name : String) (d : Def) :
    processorMethod (env.relabel ρ) name (d.relabel ρ) = processorMethod env name d := by
  simp [processorMethod]

@[simp] theorem libraryMethods_silent (name : String) (d : Def) :
    libraryMethods (env.relabel ρ) name (d.relabel ρ) = libraryMethods env name d := by
  simp [libraryMethods]

@[simp] theorem plainMethods_silent (name : String) (d : Def) :
    plainMethods (env.relabel ρ) name (d.relabel ρ) = plainMethods env name d := by
  simp [plainMethods]

section

variable {p : OutputPlan} [Fact p.env.Apart]

theorem message_silent (d : Def) : message (p.relabel ρ) (d.relabel ρ) = message p d := by
  simp [message, ownName]

/-! ### The file -/

theorem definition_silent (d : Def) : definition (p.relabel ρ) (d.relabel ρ) = definition p d := by
  cases d with
  | typeAlias h target =>
    have halias := @typeAlias_silent ρ p.env _ _ (.typeAlias h target) target
    have htype := @aliasType_silent ρ p.env _ _ (.typeAlias h target) target
    simp only [Def.relabel] at halias htype
    simp only [Def.relabel, definition, OutputPlan.env_relabel, OutputPlan.optimized_relabel, halias, htype]
  | constant h k v => exact congrArg (some <$> ·) (constant_silent h k v)
  | enum h o cap ms => exact congrArg (some <$> ·) (enum_silent (.enum h o cap ms) (.uint o cap))
  | message h ext ms => exact congrArg (some <$> ·) (message_silent (.message h ext ms))
  | _ => rfl

/-- **The Go file is the same.** -/
theorem block_silent : block (p.relabel ρ) = block p := by
  refine Def.ownDefinitions_bind_silent (fun ds => ?_) (fun ds => ?_) fun ds _ => ?_
  · rw [Block.forDefinitions_nonfields (definition p) fun _ _ _ => rfl]
  · rw [Block.forDefinitions_nonfields (definition (p.relabel ρ)) fun _ _ _ => rfl]
  · have hdefinitions := Block.forDefinitions_map (ρ := ρ) fun d (_ : d ∈ nonfields ds) => definition_silent (p := p) d
    simp only [OutputPlan.file_relabel, package, Line.comments_silent, Def.name_relabel, imports, Def.imports_silent,
      List.mapM_map, Function.comp_def, Relabeling.member, importStatement_silent, hdefinitions]
    rfl

end

end GoPackage

end BitSchema
