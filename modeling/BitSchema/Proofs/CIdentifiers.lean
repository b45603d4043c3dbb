import BitSchema.Lint
import BitSchema.Proofs.LongConstants
import BitSchema.Proofs.Relabeling

/-!
# Identifiers of C code

The types and the functions that C code has for the definitions of a schema share one space of names.  A type has the
name of its definition, written without the underscores between nested names.  A function has a start that says what
it does, and then the name of a definition or, for the arrays behind fields and aliases, `Array`, the name of the
message or alias, and the number of the field.

No start begins another, so functions that do different things have different names (`nodup_flatMap_starts`).  What can
clash is said in `Def.cNames_nodup_iff`: two types, two functions that do the same, and a type with a function.  Each of
these happens, also where the linter has nothing to say: nested messages `A` and `B` and a message `AB` have one name.
-/

namespace BitSchema

open List

/-! ### The names -/

/-- Fields and aliases behind which an array stands. -/
def Def.holdsArray : Def → Bool
  | .field _ (.array _ _ _ _) _ => true
  | .typeAlias _ (.array _ _ _ _) => true
  | _ => false

namespace CLibrary

def ofKinds (ks : List Kind) (ds : List Def) : List Def := ds.filter fun d => ks.contains d.kind

/-- **The functions that the library calls back** to do one thing: those of aliases and messages, and those of
arrays. -/
def callbacks (env : Env) (ds : List Def) (start : String) : Except Fault (List String) := do
  return (← (ofKinds [.typeAlias, .message] ds).mapM (functionName start env)) ++
    (← (ds.filter Def.holdsArray).mapM (arrayFunctionName start "" env))

def callbackStarts : List String := [processorStart, jsonStart]

/-- How functions start of which a message has one each. -/
def messageStarts : List String := ["BpFieldDescriptorsInit", "Encode", "Decode", "Json"]

end CLibrary

/-- **The identifiers of C code** for a schema file. -/
structure CNames where
  types : List String
  /-- The functions that the library calls back, without their starts. -/
  callbacks : List String
  functions : List String
deriving DecidableEq

open CLibrary in
/-- **The identifiers for the definitions of a file.** -/
def Def.cNames (env : Env) (file : Def) : Except Fault CNames := do
  let ds ← file.ownDefinitions
  let types ← (ofKinds [.enum, .typeAlias, .message] ds).mapM (Dialect.c.ownName env)
  let callbacks ← callbacks env ds ""
  let called ← callbackStarts.mapM (CLibrary.callbacks env ds)
  let others ← messageStarts.mapM fun start => (ofKinds [.message] ds).mapM (functionName start env)
  return { types, callbacks, functions := called.flatten ++ others.flatten }

/-! ### Starts -/

/-- Neither text begins the other. -/
def Apart (a b : String) : Prop := ¬ a.toList <+: b.toList ∧ ¬ b.toList <+: a.toList

instance (a b : String) : Decidable (Apart a b) := inferInstanceAs (Decidable (_ ∧ _))

theorem Apart.append_ne {a b : String} (h : Apart a b) (x y : String) : a ++ x ≠ b ++ y := by
  intro heq
  have hlist : a.toList ++ x.toList = b.toList ++ y.toList := by
    rw [← String.toList_append, heq, String.toList_append]
  have ha : a.toList <+: b.toList ++ y.toList := hlist ▸ prefix_append _ _
  rcases prefix_or_prefix_of_prefix ha (prefix_append _ _) with hab | hba
  · exact h.1 hab
  · exact h.2 hba

/-- **Names with different starts do not clash**: each start only has to have different names. -/
theorem nodup_flatMap_starts (fs : List (String × List String)) (hfs : (fs.map (·.1)).Pairwise Apart) :
    (fs.flatMap fun f => f.2.map (f.1 ++ ·)).Nodup ↔ ∀ f ∈ fs, f.2.Nodup := by
  rw [nodup_flatMap]
  constructor
  · rintro ⟨hnodup, -⟩ f hf
    exact (hnodup f hf).of_map _
  · intro hnodup
    refine ⟨fun f hf => (hnodup f hf).map fun x y hxy => ?_, ?_⟩
    · exact (String.append_right_inj f.1).1 hxy
    · refine (pairwise_map.1 hfs).imp fun hapart => ?_
      intro name hname hname'
      obtain ⟨x, -, rfl⟩ := mem_map.1 hname
      obtain ⟨y, -, hy⟩ := mem_map.1 hname'
      exact hapart.append_ne x y hy.symm

namespace CLibrary

theorem starts_apart : (callbackStarts ++ messageStarts).Pairwise Apart := by decide +kernel

theorem functionName_eq (start : String) (env : Env) (d : Def) :
    functionName start env d = (Dialect.c.ownName env d).map (start ++ ·) := by
  unfold functionName
  cases Dialect.c.ownName env d <;> rfl

theorem arrayFunctionName_eq (start word : String) (env : Env) (d : Def) :
    arrayFunctionName start word env d = (arrayFunctionName "" word env d).map (start ++ ·) := by
  cases d with
  | field h t number =>
    unfold arrayFunctionName
    cases env.messageOf (.field h t number) with
    | error f => rfl
    | ok m =>
      cases hname : Dialect.c.ownName env m <;>
        simp [hname, bind, pure, Except.bind, Except.pure, Except.map, String.append_assoc, toString]
  | typeAlias h target =>
    unfold arrayFunctionName
    cases Dialect.c.ownName env (.typeAlias h target) <;>
      simp [bind, pure, Except.bind, Except.pure, Except.map, String.append_assoc]
  | _ => rfl

theorem mapM_functionName (start : String) (env : Env) (ds : List Def) :
    ds.mapM (functionName start env) = (ds.mapM (Dialect.c.ownName env)).map (List.map (start ++ ·)) :=
  Def.mapM_eq_map (functionName_eq start env) ds

theorem callbacks_eq (env : Env) (ds : List Def) (start : String) :
    callbacks env ds start = (callbacks env ds "").map (List.map (start ++ ·)) := by
  unfold callbacks
  rw [mapM_functionName start, mapM_functionName "", Def.mapM_eq_map (arrayFunctionName_eq start "" env)]
  cases (ofKinds [.typeAlias, .message] ds).mapM (Dialect.c.ownName env) with
  | error f => rfl
  | ok xs =>
    cases (ds.filter Def.holdsArray).mapM (arrayFunctionName "" "" env) with
    | error f => rfl
    | ok ys => simp [bind, pure, Except.bind, Except.pure, Except.map]

end CLibrary

/-! ### Clashes -/

theorem exists_ok_of_sublist {α β : Type} {f : α → Except Fault β} {as bs : List α} (h : as.Sublist bs) {ys : List β}
    (hys : bs.mapM f = .ok ys) : ∃ xs, as.mapM f = .ok xs ∧ xs.Sublist ys := by
  induction h generalizing ys with
  | slnil => exact ⟨ys, hys, .refl _⟩
  | cons b _ ih =>
    rw [mapM_cons] at hys
    obtain ⟨y, -, hys⟩ := exists_ok_of_bind hys
    obtain ⟨ys', hys', heq⟩ := exists_ok_of_bind hys
    obtain rfl := Except.ok.inj heq
    obtain ⟨xs, hxs, hsub⟩ := ih hys'
    exact ⟨xs, hxs, hsub.cons y⟩
  | cons_cons b _ ih =>
    rw [mapM_cons] at hys
    obtain ⟨y, hy, hys⟩ := exists_ok_of_bind hys
    obtain ⟨ys', hys', heq⟩ := exists_ok_of_bind hys
    obtain rfl := Except.ok.inj heq
    obtain ⟨xs, hxs, hsub⟩ := ih hys'
    refine ⟨y :: xs, ?_, hsub.cons_cons y⟩
    rw [mapM_cons, hy, hxs]
    rfl

namespace Def

variable {env : Env} {file : Def} {names : CNames}

/-- **What the functions are called**: each start stands in front of the names of what has such a function. -/
theorem functions_of_cNames (h : file.cNames env = .ok names) : ∃ ds messages, file.ownDefinitions = .ok ds ∧
    CLibrary.callbacks env ds "" = .ok names.callbacks ∧
    (CLibrary.ofKinds [.message] ds).mapM (Dialect.c.ownName env) = .ok messages ∧ messages.Sublist names.types ∧
    names.functions = (CLibrary.callbackStarts.map (·, names.callbacks) ++
      CLibrary.messageStarts.map (·, messages)).flatMap fun f => f.2.map (f.1 ++ ·) := by
  obtain ⟨ds, hds, h⟩ := exists_ok_of_bind h
  obtain ⟨types, htypes, h⟩ := exists_ok_of_bind h
  obtain ⟨callbacks, hcallbacks, h⟩ := exists_ok_of_bind h
  have hsub : (CLibrary.ofKinds [.message] ds).Sublist (CLibrary.ofKinds [.enum, .typeAlias, .message] ds) :=
    monotone_filter_right ds fun d => by
      simp only [contains_eq_mem, mem_cons, not_mem_nil, or_false, decide_eq_true_eq]
      exact fun hd => .inr (.inr hd)
  obtain ⟨messages, hmessages, hsub⟩ := exists_ok_of_sublist hsub htypes
  rw [mapM_eq_ok (u := fun start => callbacks.map (start ++ ·)) fun start _ => by
      rw [CLibrary.callbacks_eq, hcallbacks]
      rfl] at h
  obtain ⟨_, heq, h⟩ := exists_ok_of_bind h
  obtain rfl := Except.ok.inj heq
  rw [mapM_eq_ok (u := fun start => messages.map (start ++ ·)) fun start _ => by
      rw [CLibrary.mapM_functionName, hmessages]
      rfl] at h
  obtain ⟨_, heq, h⟩ := exists_ok_of_bind h
  obtain rfl := Except.ok.inj heq
  obtain rfl := Except.ok.inj h
  refine ⟨ds, messages, hds, hcallbacks, hmessages, hsub, ?_⟩
  rw [flatMap_append, flatMap_map, flatMap_map]
  rfl

/-- **When identifiers of C code are different**: if and only if no two types have one name, no two aliases, messages or
arrays have functions of one name, and no type is named like a function. -/
theorem cNames_nodup_iff (h : file.cNames env = .ok names) : (names.types ++ names.functions).Nodup ↔
    names.types.Nodup ∧ names.callbacks.Nodup ∧ ∀ name ∈ names.types, name ∉ names.functions := by
  obtain ⟨ds, messages, -, -, -, hsub, hfunctions⟩ := functions_of_cNames h
  have hstarts := nodup_flatMap_starts (CLibrary.callbackStarts.map (·, names.callbacks) ++
    CLibrary.messageStarts.map (·, messages)) CLibrary.starts_apart
  rw [← hfunctions] at hstarts
  rw [List.nodup_append', hstarts]
  constructor
  · rintro ⟨htypes, hnodup, hdisjoint⟩
    exact ⟨htypes, hnodup (CLibrary.processorStart, names.callbacks) (by simp [CLibrary.callbackStarts]), hdisjoint⟩
  · rintro ⟨htypes, hcallbacks, hdisjoint⟩
    refine ⟨htypes, fun f hf => ?_, hdisjoint⟩
    rcases List.mem_append.1 hf with hf | hf
    · obtain ⟨_, -, rfl⟩ := List.mem_map.1 hf
      exact hcallbacks
    · obtain ⟨_, -, rfl⟩ := List.mem_map.1 hf
      exact hsub.nodup htypes

end Def

namespace Sample

/-- Files with clashing names: of two messages, of an alias and a function, of a message and the array behind an alias,
and of the arrays behind two fields. -/
def clashing : List String := [
  "proto a\nmessage A \x7b\n    message B \x7b\x7d\n\x7d\nmessage AB \x7b\x7d\n",
  "proto a\nmessage X \x7b\x7d\ntype EncodeX = byte\n",
  "proto a\ntype X = byte[2]\nmessage ArrayX \x7b\x7d\n",
  "proto a\nmessage A \x7b\n    byte[2] x = 12\n\x7d\nmessage A1 \x7b\n    byte[2] x = 2\n\x7d\n"]

def read (text : String) : Except Fault Def :=
  (Reader.parseText (.ofTree { cwd := "/", files := [] }) text false).result

/-- The warnings about a text and the identifiers for it. -/
def identifiers (text : String) : Except Fault (List Report × CNames) := do
  let p ← read text
  let warnings ← p.lint
  return (warnings, ← p.cNames ⟨[p]⟩)

end Sample

theorem Def.cNames_nodup_iff_clashing : Sample.clashing.Forall fun text => ∃ p names,
    Sample.read text = .ok p ∧ p.lint = .ok [] ∧ p.cNames ⟨[p]⟩ = .ok names ∧
      ¬ (names.types ++ names.functions).Nodup := by
  have hclashes : ∀ text ∈ Sample.clashing, (Sample.identifiers text).map (fun found => (found.1.length,
      decide (found.2.types.Nodup ∧ found.2.callbacks.Nodup ∧ ∀ name ∈ found.2.types, name ∉ found.2.functions))) =
      .ok (0, false) := by
    decide +kernel
  refine List.forall_iff_forall_mem.2 fun text htext => ?_
  obtain ⟨found, hfound⟩ := exists_ok_of_map (hclashes text htext)
  have hclash := hclashes text htext
  rw [hfound] at hclash
  have hpair := Prod.ext_iff.1 (Except.ok.inj hclash)
  obtain ⟨p, hp, h⟩ := exists_ok_of_bind hfound
  obtain ⟨warnings, hlint, h⟩ := exists_ok_of_bind h
  obtain ⟨names, hnames, h⟩ := exists_ok_of_bind h
  obtain rfl := Except.ok.inj h
  obtain rfl := List.length_eq_zero_iff.1 hpair.1
  exact ⟨p, names, hp, hlint, hnames, fun hnodup => of_decide_eq_false hpair.2 ((cNames_nodup_iff hnames).1 hnodup)⟩

end BitSchema
