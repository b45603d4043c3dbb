import BitSchema.Proofs.WrittenTypes

/-!
# Plans for relabelled files

Whatever the language, a file is written definition by definition, and a message field by field.  The definitions of a
relabelled file are those of the file (`Def.ownDefinitions_silent`) except for the fields of messages, for which
nothing is written on their own (`Block.forDefinitions_nonfields`), and the fields of a message come in the order of
their numbers (`Def.forFields_silent`).
-/

namespace BitSchema

open List

variable {ρ : Relabeling} {env : Env}

/-! ### Plans -/

def OutputPlan.relabel (ρ : Relabeling) (p : OutputPlan) : OutputPlan :=
  { p with env := p.env.relabel ρ, file := p.file.relabel ρ }

namespace OutputPlan

variable (p : OutputPlan)

@[simp] theorem env_relabel : (p.relabel ρ).env = p.env.relabel ρ := rfl

@[simp] theorem file_relabel : (p.relabel ρ).file = p.file.relabel ρ := rfl

@[simp] theorem optimized_relabel : (p.relabel ρ).optimized = p.optimized := rfl

@[simp] theorem includes_relabel (d : Def) : (p.relabel ρ).includes (d.relabel ρ) = p.includes d := by
  rw [includes, includes, Def.name_relabel]
  rfl

end OutputPlan

/-- The definitions that are no fields of messages. -/
def nonfields (ds : List Def) : List Def := ds.filter fun d => !d.isA .messageField

theorem map_others (ms : Members) : (others ms).map (·.2) = nonfields (ms.map (·.2)) := by
  rw [others, nonfields, filter_map]
  rfl

theorem mapM_map_congr {α α' β : Type} {f : α → Except Fault β} {f' : α' → Except Fault β} {g : α → α'} {as : List α}
    (h : ∀ a ∈ as, f' (g a) = f a) : (as.map g).mapM f' = as.mapM f := by
  induction as with
  | nil => rfl
  | cons a as ih =>
    rw [map_cons, mapM_cons, mapM_cons, h a (mem_cons_self ..),
      ih fun b hb => h b (mem_cons_of_mem _ hb)]

namespace Def

section

variable [Fact ρ.Silent]

@[simp] theorem forFields_silent {α : Type} (d : Def) (make : Def → Ty → Except Fault α) :
    (d.relabel ρ).forFields make = d.forFields fun f t => make (f.relabel ρ) (t.relabel ρ) := by
  simp only [forFields, sortedFields_relabel, mapM_map, Function.comp_def, ty?_getD_relabel]

theorem map_nonfields_ownDefinitions (d : Def) :
    d.ownDefinitions.map nonfields =
      ((d.select .boundDefinition true (some d.id)).map others).map (List.map (·.2)) := by
  unfold ownDefinitions
  cases d.select .boundDefinition true (some d.id) with
  | error f => rfl
  | ok ms => exact congrArg Except.ok (map_others ms).symm

/-- **The same definitions are written**, fields of messages aside. -/
theorem ownDefinitions_silent (d : Def) :
    (d.relabel ρ).ownDefinitions.map nonfields = (d.ownDefinitions.map nonfields).map (List.map (relabel ρ)) := by
  have h := select_silent (ρ := ρ) d .boundDefinition true (some d.id)
  rw [Option.map_some, ← id_relabel] at h
  rw [map_nonfields_ownDefinitions, map_nonfields_ownDefinitions, h]
  cases (d.select .boundDefinition true (some d.id)).map others with
  | error f => rfl
  | ok ms =>
    refine congrArg Except.ok ?_
    rw [map_map, map_map]
    rfl

@[simp] theorem imports_silent (d : Def) : (d.relabel ρ).imports = d.imports.map ρ.member := by
  rw [imports, imports, direct_silent rfl]

@[simp] theorem outputName_silent (d : Def) (extension : String) :
    (d.relabel ρ).outputName extension = d.outputName extension := by
  have hfile : (d.relabel ρ).header.origin.file = d.header.origin.file := by
    rw [header_relabel]
    exact (Fact.out : ρ.Silent).file _
  simp only [outputName, hfile, name_relabel]

theorem ownDefinitions_bind_silent {α : Type} {d : Def} {write write' : List Def → Except Fault α}
    (hwrite : ∀ ds, write (nonfields ds) = write ds) (hwrite' : ∀ ds, write' (nonfields ds) = write' ds)
    (h : ∀ ds, d.ownDefinitions = .ok ds → write' ((nonfields ds).map (relabel ρ)) = write (nonfields ds)) :
    (d.relabel ρ).ownDefinitions >>= write' = d.ownDefinitions >>= write := by
  have hbind {e : Def} {write : List Def → Except Fault α} (hwrite : ∀ ds, write (nonfields ds) = write ds) :
      e.ownDefinitions >>= write = e.ownDefinitions.map nonfields >>= write := by
    cases e.ownDefinitions with
    | error f => rfl
    | ok ds => exact (hwrite ds).symm
  rw [hbind hwrite', hbind hwrite, ownDefinitions_silent]
  cases hds : d.ownDefinitions with
  | error f => rfl
  | ok ds => exact h ds hds

end

theorem wellFormed_of_mem_ownDefinitions {file d : Def} (hfile : file.WellFormed) {ds : List Def}
    (hds : file.ownDefinitions = .ok ds) (hd : d ∈ ds) : d.WellFormed := by
  unfold ownDefinitions at hds
  rw [select_some] at hds
  split at hds
  · cases hds
    obtain ⟨m, hm, rfl⟩ := mem_map.1 hd
    obtain ⟨m', hm', hlisted⟩ := mem_flatMap.1 hm
    have hmember : m ∈ listed .boundDefinition true m' := by
      unfold listedFor at hlisted
      split at hlisted
      · exact hlisted
      · cases hlisted
    have hwithin : m ∈ file.within .boundDefinition := by
      rw [within_eq, membersWithin_eq_flatMap_listed]
      exact mem_flatMap.2 ⟨m', hm', hmember⟩
    exact (of_mem_within (fun _ => WellFormed.members) hfile hwithin).2
  · cases hds

end Def

theorem filter_nonfields {keep : Def → Bool} (h : ∀ d, keep d = true → d.isA .messageField = false) (ds : List Def) :
    (nonfields ds).filter keep = ds.filter keep := by
  rw [nonfields, filter_filter]
  refine filter_congr fun d _ => ?_
  cases hd : keep d with
  | false => rfl
  | true => rw [h d hd]; rfl

@[simp] theorem Dialect.importStatement_silent [Fact ρ.Silent] (d : Def) (name : Option String) (l : Dialect) :
    l.importStatement (d.relabel ρ) name = l.importStatement d name := by
  cases l <;> simp [importStatement, pythonModule]

namespace Block

theorem forDefinitions_cons (d : Def) (ds : List Def) (make : Def → Except Fault (Option Block)) :
    forDefinitions (d :: ds) make = do
      let b ← make d
      let bs ← forDefinitions ds make
      return b.toList ++ bs := by
  unfold forDefinitions
  rw [mapM_cons]
  cases make d with
  | error f => rfl
  | ok b => cases ds.mapM make <;> cases b <;> rfl

theorem forDefinitions_nonfields (make : Def → Except Fault (Option Block))
    (hmake : ∀ h t n, make (.field h t n) = .ok none) (ds : List Def) :
    forDefinitions (nonfields ds) make = forDefinitions ds make := by
  induction ds with
  | nil => rfl
  | cons d ds ih =>
    cases hd : d.isA .messageField with
    | true =>
      have hcons : nonfields (d :: ds) = nonfields ds := filter_cons_of_neg (by simp [hd])
      obtain ⟨h, t, n, rfl⟩ := Def.eq_field_of_isA hd
      rw [hcons, ih, forDefinitions_cons, hmake]
      cases forDefinitions ds make <;> rfl
    | false =>
      have hcons : nonfields (d :: ds) = d :: nonfields ds := filter_cons_of_pos (by simp [hd])
      rw [hcons, forDefinitions_cons, forDefinitions_cons, ih]

theorem forDefinitions_map {make make' : Def → Except Fault (Option Block)} {ds : List Def}
    (h : ∀ d ∈ ds, make' (d.relabel ρ) = make d) :
    forDefinitions (ds.map (Def.relabel ρ)) make' = forDefinitions ds make := by
  rw [forDefinitions, forDefinitions, mapM_map_congr h]

end Block

end BitSchema
