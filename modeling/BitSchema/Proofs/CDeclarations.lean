import BitSchema.Proofs.CIdentifiers
import BitSchema.Proofs.DefinitionOrder
import BitSchema.Proofs.ScopesAround
import BitSchema.Proofs.WrittenFiles
import BitSchema.Target.CSource

/-!
# What C files declare

The identifiers that `Def.cNames` lists are those that the C files of a schema file declare.  Types and functions are
declared by lines that are not indented: `Block.margin` gives them.

* `CHeader.types_of_block`: the types that the header declares, in order.
* `CSource.functions_of_block`: the functions that the source defines, up to their order.  With statements written out
  they are only some of those listed.

Functions of arrays are listed for the fields of a file, and they are written for the fields of its messages.  These are
the same fields since each stands in a message (`Def.arrays_perm`).
-/

namespace BitSchema

open List

theorem forall₂_of_mapM {α β : Type} {f : α → Except Fault β} {as : List α} {bs : List β} (h : as.mapM f = .ok bs) :
    Forall₂ (fun a b => f a = .ok b) as bs := by
  induction as generalizing bs with
  | nil =>
    obtain rfl := Except.ok.inj h
    exact .nil
  | cons a as ih =>
    rw [mapM_cons] at h
    obtain ⟨b, hb, h⟩ := exists_ok_of_bind h
    obtain ⟨bs', hbs, h⟩ := exists_ok_of_bind h
    obtain rfl := Except.ok.inj h
    exact .cons hb (ih hbs)

/-! ### Lines that are not indented -/

def Line.margin? (block : Int) : Line → Option String
  | .text s indent => if indent.getD block = 0 then some s else none
  | _ => none

mutual

/-- **The lines of a block that are not indented**, comments left aside. -/
def Block.margin : Block → List String
  | .lines indent ls => ls.filterMap (Line.margin? indent)
  | .closing indent ls close => (ls ++ close).filterMap (Line.margin? indent)
  | .group _ bs => blocksMargin bs
  | .around indent before none after => (before ++ after).filterMap (Line.margin? indent)
  | .around indent before (some b) after =>
    before.filterMap (Line.margin? indent) ++ b.margin ++ after.filterMap (Line.margin? indent)
  | .when condition b => if condition then b.margin else []

/-- The lines of some blocks that are not indented. -/
def blocksMargin : List Block → List String
  | [] => []
  | b :: bs => b.margin ++ blocksMargin bs

end

theorem blocksMargin_eq (bs : List Block) : blocksMargin bs = bs.flatMap Block.margin := by
  induction bs with
  | nil => rfl
  | cons b bs ih => rw [blocksMargin, ih, flatMap_cons]

namespace Block

theorem margin_paragraphs (bs : List Block) : (paragraphs bs).margin = bs.flatMap margin := by
  rw [paragraphs, margin, blocksMargin_eq]

theorem margin_stacked (bs : List Block) : (stacked bs).margin = bs.flatMap margin := by
  rw [stacked, margin, blocksMargin_eq]

theorem margin_ofLines (ls : List Line) : (ofLines ls).margin = ls.filterMap (Line.margin? 0) := by
  rw [ofLines, margin]

end Block

theorem Line.filterMap_comments (d : Def) (indent : Option Int) (block : Int) :
    (comments d indent).filterMap (margin? block) = [] := by
  simp [comments, margin?]

/-! ### Forms of lines -/

def startsWith (start line : String) : Bool := start.toList.isPrefixOf line.toList

theorem startsWith_append (start rest : String) : startsWith start (start ++ rest) = true := by
  rw [startsWith, String.toList_append, isPrefixOf_iff_prefix]
  exact prefix_append _ _

theorem Apart.startsWith_append {a b : String} (h : Apart a b) (rest : String) : startsWith a (b ++ rest) = false := by
  rw [startsWith, Bool.eq_false_iff, ne_eq, isPrefixOf_iff_prefix]
  rintro ⟨more, hmore⟩
  refine h.append_ne (String.ofList more) rest (String.toList_inj.1 ?_)
  rw [String.toList_append, String.toList_ofList, hmore]

/-- **A form of declarations**: how their lines start, and which line declares a name. -/
structure LineForm where
  starts : List String
  Declares : String → String → Prop
  starts_of_declares : ∀ {name line}, Declares name line → ∃ start ∈ starts, ∃ rest, line = start ++ rest

namespace LineForm

variable (form : LineForm)

def test (line : String) : Bool := form.starts.any (startsWith · line)

/-- **The declarations in some lines** are those of certain names. -/
def Lists (lines names : List String) : Prop :=
  Forall₂ (fun line name => form.Declares name line) (lines.filter form.test) names

variable {form} {lines lines' names names' : List String}

theorem Lists.append (h : form.Lists lines names) (h' : form.Lists lines' names') :
    form.Lists (lines ++ lines') (names ++ names') := by
  unfold Lists
  rw [filter_append]
  exact rel_append h h'

theorem lists_nil : form.Lists [] [] := .nil

theorem lists_of_filter (h : lines.filter form.test = []) : form.Lists lines [] := by
  unfold Lists
  rw [h]
  exact .nil

theorem lists_single {line name : String} (h : form.Declares name line) : form.Lists [line] [name] := by
  obtain ⟨start, hstart, rest, rfl⟩ := form.starts_of_declares h
  have htest : form.test (start ++ rest) = true := any_eq_true.2 ⟨start, hstart, startsWith_append start rest⟩
  unfold Lists
  rw [filter_cons_of_pos htest]
  exact .cons h .nil

/-- A line with another start declares nothing. -/
theorem lists_other {start : String} (h : ∀ s ∈ form.starts, Apart s start) (rest : String) :
    form.Lists [start ++ rest] [] := by
  have htest : form.test (start ++ rest) = false :=
    any_eq_false.2 fun s hs => by simp [(h s hs).startsWith_append rest]
  exact lists_of_filter (filter_cons_of_neg (by simp [htest]))

/-- The declarations in some blocks are those in each of them. -/
theorem lists_blocks {bs : List Block} {parts : List (List String)}
    (h : Forall₂ (fun b names => form.Lists b.margin names) bs parts) :
    form.Lists (bs.flatMap Block.margin) parts.flatten := by
  induction h with
  | nil => exact lists_nil
  | cons hb _ ih => exact hb.append ih

/-- **What is written**, if it can be, declares certain names. -/
def Written (form : LineForm) (names : List String) (x : Except Fault Block) : Prop :=
  ∀ b, x = .ok b → form.Lists b.margin names

theorem Written.bind {α : Type} {x : Except Fault α} {f : α → Except Fault Block}
    (h : ∀ a, x = .ok a → form.Written names (f a)) : form.Written names (x >>= f) := by
  intro b hb
  obtain ⟨a, ha, hb⟩ := exists_ok_of_bind hb
  exact h a ha b hb

theorem Written.ok {b : Block} (h : form.Lists b.margin names) : form.Written names (.ok b) := by
  intro b' hb
  obtain rfl := Except.ok.inj hb
  exact h

theorem Written.map_some {x : Except Fault Block} {o : Option Block} (hx : form.Written names x)
    (h : some <$> x = .ok o) :
    form.Lists (o.toList.flatMap Block.margin) names := by
  cases x with
  | error f => cases h
  | ok b =>
    obtain rfl := Except.ok.inj h
    rw [Option.toList_some, flatMap_singleton]
    exact hx b rfl

/-- **The declarations in a list of results** are those in each of them. -/
theorem lists_of_mapM {α β : Type} {make : α → Except Fault β} {linesOf : β → List String} {namesOf : α → List String}
    (hmake : ∀ a b, make a = .ok b → form.Lists (linesOf b) (namesOf a)) {as : List α} {bs : List β}
    (h : as.mapM make = .ok bs) : form.Lists (bs.flatMap linesOf) (as.flatMap namesOf) := by
  have hall := forall₂_of_mapM h
  clear h
  induction hall with
  | nil => exact lists_nil
  | cons hb _ ih => exact (hmake _ _ hb).append ih

theorem Written.mapM {α : Type} {make : α → Except Fault Block} (hmake : ∀ a, form.Written [] (make a)) {as : List α}
    {bs : List Block} (h : as.mapM make = .ok bs) : form.Lists (bs.flatMap Block.margin) [] := by
  have hnames : as.flatMap (fun _ => ([] : List String)) = [] := flatMap_eq_nil_iff.2 fun _ _ => rfl
  exact hnames ▸ lists_of_mapM hmake h

end LineForm

/-- **The line of a type with a name**: the first line of a structure, or a type definition. -/
inductive IsTypeLine (name : String) : String → Prop where
  | struct : IsTypeLine name ("struct " ++ name ++ " \x7b")
  | single (type : String) : IsTypeLine name ("typedef " ++ type ++ " " ++ name ++ ";")
  | array (element : String) (cap : Nat) : IsTypeLine name ("typedef " ++ (element ++ s!" {name}[{cap}]") ++ ";")

theorem IsTypeLine.exists_start {name line : String} (h : IsTypeLine name line) :
    ∃ start ∈ ["struct ", "typedef "], ∃ rest, line = start ++ rest := by
  cases h with
  | struct => exact ⟨"struct ", by simp, _, String.append_assoc ..⟩
  | single type => exact ⟨"typedef ", by simp, type ++ (" " ++ (name ++ ";")), by simp only [String.append_assoc]⟩
  | array element cap => exact ⟨"typedef ", by simp, _, String.append_assoc ..⟩

def typeForm : LineForm := ⟨["struct ", "typedef "], IsTypeLine, IsTypeLine.exists_start⟩

theorem IsTypeLine.lists {name line : String} (h : IsTypeLine name line) : typeForm.Lists [line] [name] :=
  LineForm.lists_single h

/-- **The signature of a function with a name.** -/
inductive IsSignature (name : String) : String → Prop where
  | int (parameters : String) : IsSignature name ("int " ++ (name ++ "(" ++ parameters ++ ")"))
  | void (parameters : String) : IsSignature name ("void " ++ (name ++ "(" ++ parameters ++ ")"))

theorem IsSignature.exists_start {name signature : String} (h : IsSignature name signature) :
    ∃ start ∈ ["int ", "void "], ∃ rest, signature = start ++ rest := by
  cases h with
  | int => exact ⟨"int ", by simp, _, rfl⟩
  | void => exact ⟨"void ", by simp, _, rfl⟩

/-- **The line that opens the body of a function** with a name. -/
def OpensFunction (name line : String) : Prop := ∃ signature, IsSignature name signature ∧ line = signature ++ " \x7b"

theorem OpensFunction.exists_start {name line : String} (h : OpensFunction name line) :
    ∃ start ∈ ["int ", "void "], ∃ rest, line = start ++ rest := by
  obtain ⟨signature, h, rfl⟩ := h
  obtain ⟨start, hstart, rest, rfl⟩ := h.exists_start
  exact ⟨start, hstart, _, String.append_assoc ..⟩

def functionForm : LineForm := ⟨["int ", "void "], OpensFunction, OpensFunction.exists_start⟩

theorem IsSignature.of_toList {name s s' : String} (h : IsSignature name s) (heq : s'.toList = s.toList) :
    IsSignature name s' := String.toList_inj.1 heq ▸ h

/-! ### Names of definitions -/

namespace CLibrary

variable {env : Env} {d : Def} {name : String}

/-- The name of a definition in C, empty if it has none. -/
def nameOr (env : Env) (d : Def) : String := (Dialect.c.ownName env d).toOption.getD ""

theorem eq_nameOr (h : Dialect.c.ownName env d = .ok name) : name = nameOr env d := by
  rw [nameOr, h]
  rfl

/-- The name behind the start of a function of an array, empty if there is none. -/
def arrayNameOr (env : Env) (d : Def) : String := (arrayFunctionName "" "" env d).toOption.getD ""

theorem eq_of_functionName {start : String} (h : functionName start env d = .ok name) :
    name = start ++ nameOr env d := by
  obtain ⟨_, hname, h⟩ := exists_ok_of_bind h
  rw [← eq_nameOr hname]
  exact (Except.ok.inj h).symm

theorem eq_of_arrayFunctionName {start word : String} (hd : d.holdsArray = true)
    (h : arrayFunctionName start word env d = .ok name) : name = start ++ arrayNameOr env d := by
  have hword : arrayFunctionName start word env d = arrayFunctionName start "" env d := by
    cases d <;> first | rfl | cases hd
  rw [hword, arrayFunctionName_eq] at h
  unfold arrayNameOr
  cases hname : arrayFunctionName "" "" env d with
  | error f => rw [hname] at h; cases h
  | ok n => rw [hname] at h; exact (Except.ok.inj h).symm

theorem eq_map_of_mapM {f : Def → Except Fault String} {u : Def → String} {ds : List Def} {names : List String}
    (hu : ∀ d ∈ ds, ∀ name, f d = .ok name → name = u d) (h : ds.mapM f = .ok names) : names = ds.map u := by
  have hall := forall₂_of_mapM h
  clear h
  induction hall with
  | nil => rfl
  | cons hname _ ih =>
    rw [map_cons, ← hu _ (mem_cons_self ..) _ hname, ih fun d hd => hu d (mem_cons_of_mem _ hd)]

theorem callbacks_eq_append {ds : List Def} {names : List String} (h : callbacks env ds "" = .ok names) :
    names = (ofKinds [.typeAlias, .message] ds).map (nameOr env) ++
      (ds.filter Def.holdsArray).map (arrayNameOr env) := by
  obtain ⟨own, hown, h⟩ := exists_ok_of_bind h
  obtain ⟨arrays, harrays, h⟩ := exists_ok_of_bind h
  obtain rfl := Except.ok.inj h
  rw [eq_map_of_mapM (fun d _ name hname => (eq_of_functionName hname).trans String.empty_append) hown]
  rw [eq_map_of_mapM (fun d hd name hname =>
    (eq_of_arrayFunctionName (mem_filter.1 hd).2 hname).trans String.empty_append) harrays]

theorem flatMap_filter_single (p : Def → Bool) (f : Def → String) (ds : List Def) :
    (ds.flatMap fun d => ([d].filter p).map f) = (ds.filter p).map f := by
  induction ds with
  | nil => rfl
  | cons d ds ih => rw [flatMap_cons, ih, ← map_append, ← filter_append, singleton_append]

theorem ofKinds_cons (ks : List Kind) (d : Def) (ds : List Def) :
    ofKinds ks (d :: ds) = ofKinds ks [d] ++ ofKinds ks ds :=
  filter_append [d] ds

end CLibrary

/-- **What is declared for some definitions** is what is declared for each of them. -/
theorem LineForm.lists_forDefinitions {form : LineForm} {make : Def → Except Fault (Option Block)}
    {names : Def → List String} (hmake : ∀ d o, make d = .ok o → form.Lists (o.toList.flatMap Block.margin) (names d))
    {ds : List Def} {bs : List Block} (hb : Block.forDefinitions ds make = .ok bs) :
    form.Lists (bs.flatMap Block.margin) (ds.flatMap names) := by
  obtain ⟨os, hos, hb⟩ := exists_ok_of_bind hb
  obtain rfl := Except.ok.inj hb
  rw [filterMap_eq_flatMap_toList, flatMap_assoc]
  exact lists_of_mapM hmake hos

namespace CHeader

theorem isSignature_encode (name type : String) : IsSignature ("Encode" ++ name) (encodeSignature name type) :=
  (IsSignature.int (type ++ " *m, unsigned char *s")).of_toList (by simp [encodeSignature, toString])

theorem isSignature_decode (name type : String) : IsSignature ("Decode" ++ name) (decodeSignature name type) :=
  (IsSignature.int (type ++ " *m, unsigned char *s")).of_toList (by simp [decodeSignature, toString])

theorem isSignature_json (name type : String) : IsSignature ("Json" ++ name) (jsonSignature name type) :=
  (IsSignature.int (type ++ " *m, char *s")).of_toList (by simp [jsonSignature, toString])

theorem isSignature_processor (function : String) : IsSignature function (processorSignature function) :=
  (IsSignature.void "void *data, struct BpProcessorContext *ctx").of_toList (by simp [processorSignature, toString])

theorem isSignature_formatter (function : String) : IsSignature function (formatterSignature function) :=
  (IsSignature.void "void *data, struct BpJsonFormatContext *ctx").of_toList (by simp [formatterSignature, toString])

theorem isSignature_fieldsInit (function type : String) : IsSignature function (fieldsInitSignature function type) :=
  (IsSignature.void (type ++ " *m, struct BpMessageFieldDescriptor *fds")).of_toList
    (by simp [fieldsInitSignature, toString])

/-! ### Types -/

open LineForm CLibrary

theorem lists_define {form : LineForm} (h : ∀ s ∈ form.starts, Apart s "#define ") (name value : String) :
    form.Lists ["#define " ++ name ++ " " ++ value] [] := by
  rw [String.append_assoc, String.append_assoc]
  exact lists_other h _

variable {env : Env} {d : Def} {b : Block} {name : String}

theorem types_typeAlias (target : Ty) : typeForm.Written [nameOr env d] (typeAlias env d target) := by
  refine .bind fun name hname => .bind fun type htype => .ok ?_
  rw [Block.margin_ofLines, filterMap_append, Line.filterMap_comments, ← eq_nameOr hname]
  cases target with
  | array o element cap ext =>
    obtain ⟨element, -, htype⟩ := exists_ok_of_bind htype
    obtain rfl := Except.ok.inj htype
    exact (IsTypeLine.array element cap).lists
  | _ => exact (IsTypeLine.single type).lists

theorem types_enumField : typeForm.Written [] (enumField env d) := by
  refine .bind fun name _ => .ok ?_
  rw [Block.margin_ofLines, filterMap_append, Line.filterMap_comments]
  exact lists_define (by decide) name (toString d.value)

theorem types_enum (type : Ty) (hkind : d.kind = .enum) : typeForm.Written [nameOr env d] (enum env d type) := by
  have hnames : Dialect.c.enumName env d = Dialect.c.ownName env d := by
    simp [Dialect.enumName, Dialect.ownName, Dialect.name, Dialect.innerName, hkind]
  refine .bind fun name hname => .bind fun uint _ => .bind fun fields hfields => .ok ?_
  rw [Block.margin_paragraphs, flatMap_cons, flatMap_singleton, Block.margin_stacked, Block.margin_ofLines,
    filterMap_append, Line.filterMap_comments, ← eq_nameOr (hnames ▸ hname)]
  exact (IsTypeLine.single uint).lists.append (Written.mapM (fun _ => types_enumField) hfields)

/-- Lines of fields are indented. -/
theorem types_field (t : Ty) : typeForm.Written [] (field env d t) := by
  refine .bind fun name _ => .bind fun type _ => .ok ?_
  rw [Block.margin, filterMap_append, Line.filterMap_comments]
  exact lists_nil

theorem types_message (p : OutputPlan) : typeForm.Written [nameOr p.env d] (message p d) := by
  refine .bind fun name hname => .bind fun nbytes _ => .bind fun fields hfields => .bind fun alignment _ => .ok ?_
  have hfields : typeForm.Lists (fields.flatMap Block.margin) [] := Written.mapM (fun f => types_field _) hfields
  have hclose : typeForm.Lists ["\x7d"] [] := lists_of_filter (by decide)
  have hafter : ([Line.of "\x7d"] ++ (if alignment > 0 then
      [Line.tail s!"__attribute__((packed, aligned({alignment})))" " "] else []) ++
        [Line.tail ";" ""]).filterMap (Line.margin? 0) = ["\x7d"] := by
    split <;> rfl
  rw [Block.margin_paragraphs, flatMap_cons, flatMap_singleton, Block.margin_ofLines, Block.margin, Block.margin_stacked,
    hafter, filterMap_append, Line.filterMap_comments, ← eq_nameOr hname]
  exact (lists_define (by decide) _ _).append ((IsTypeLine.struct.lists.append hfields).append hclose)

theorem types_constant : typeForm.Written [] (constant env d) := by
  refine .bind fun name _ => .bind fun value _ => .ok ?_
  rw [Block.margin_ofLines, filterMap_append, Line.filterMap_comments]
  exact lists_define (by decide) name value

/-- The type that C code has for a definition, if it has one. -/
def typeNames (env : Env) (d : Def) : List String := (ofKinds [.enum, .typeAlias, .message] [d]).map (nameOr env)

/-- **What a definition adds to the header**: the type of its name if it is an enum, an alias or a message. -/
theorem types_of_types {p : OutputPlan} {o : Option Block} (hb : types p d = .ok o) :
    typeForm.Lists (o.toList.flatMap Block.margin) (typeNames p.env d) := by
  cases d with
  | typeAlias h target => exact (types_typeAlias target).map_some hb
  | enum h o cap ms => exact (types_enum _ rfl).map_some hb
  | message h ext ms => exact (types_message p).map_some hb
  | constant h k v =>
    have hnames : typeNames p.env (.constant h k v) = [] := by rcases k with _ | (_ | _ | _) <;> rfl
    rw [hnames]
    exact types_constant.map_some hb
  | option h k v =>
    have hnames : typeNames p.env (.option h k v) = [] := by rcases k with _ | (_ | _ | _) <;> rfl
    obtain rfl := Except.ok.inj hb
    rw [hnames]
    exact lists_nil
  | _ =>
    obtain rfl := Except.ok.inj hb
    exact lists_nil

/-! ### The header -/

theorem lists_declaration {signature : String} (h : IsSignature name signature) :
    typeForm.Lists [signature ++ ";"] [] := by
  have hapart : ∀ start ∈ ["int ", "void "], ∀ s ∈ typeForm.starts, Apart s start := by decide
  obtain ⟨start, hstart, rest, rfl⟩ := h.exists_start
  rw [String.append_assoc]
  exact lists_other (hapart start hstart) _

theorem types_userFunctions (p : OutputPlan) (d : Def) : typeForm.Written [] (userFunctions p d) := by
  refine .bind fun name _ => .bind fun type _ => .ok ?_
  have hboth := (lists_declaration (isSignature_encode name type)).append
    (lists_declaration (isSignature_decode name type))
  rw [Block.margin_stacked, flatMap_append]
  split
  · exact hboth.append lists_nil
  · exact hboth.append (lists_declaration (isSignature_json name type))

theorem types_libraryFunctions (env : Env) (d : Def) : typeForm.Written [] (libraryFunctions env d) := by
  refine .bind fun processor _ => .bind fun formatter _ => .ok ?_
  rw [Block.margin_stacked]
  exact (lists_declaration (isSignature_processor processor)).append
    (lists_declaration (isSignature_formatter formatter))

theorem types_imports (file : Def) : typeForm.Written [] (imports file) := by
  refine .bind fun bs hbs => .ok ?_
  rw [Block.margin_stacked]
  refine Written.mapM (fun m => .bind fun line hline => .ok ?_) hbs
  obtain rfl := Except.ok.inj hline
  rw [Block.margin_ofLines, String.append_assoc]
  exact lists_other (by decide) _

theorem lists_guard (file : Def) : typeForm.Lists (guard file).margin [] := by
  have hguard (name : String) : typeForm.Lists ["#ifndef " ++ name, "#define " ++ name ++ " 1", "#endif"] [] := by
    rw [String.append_assoc]
    exact ((lists_other (by decide) name).append (lists_other (by decide) (name ++ " 1"))).append
      (lists_of_filter (by decide))
  exact hguard _

/-- **The types that a header declares** are those that are listed for the file, in their order. -/
theorem types_of_block {p : OutputPlan} {names : CNames} (hnames : p.file.cNames p.env = .ok names) :
    typeForm.Written names.types (block p) := by
  obtain ⟨ds, hds, hnames⟩ := exists_ok_of_bind hnames
  obtain ⟨types, htypes, hnames⟩ := exists_ok_of_bind hnames
  obtain ⟨_, -, hnames⟩ := exists_ok_of_bind hnames
  obtain ⟨_, -, hnames⟩ := exists_ok_of_bind hnames
  obtain ⟨_, -, hnames⟩ := exists_ok_of_bind hnames
  obtain rfl := Except.ok.inj hnames
  refine .bind fun ds' hds' => .bind fun bs hbs => ?_
  obtain rfl := Except.ok.inj (hds.symm.trans hds')
  have htypes : typeForm.Lists (Block.paragraphs bs).margin types := by
    rw [Block.margin_paragraphs, eq_map_of_mapM (fun _ _ _ => eq_nameOr) htypes, ofKinds, ← flatMap_filter_single]
    exact lists_forDefinitions (fun _ _ => types_of_types) hbs
  have hstart : typeForm.Lists (Block.notice 0).margin [] := lists_nil
  have hcomments : typeForm.Lists (Block.ofLines (Line.comments p.file none)).margin [] := by
    rw [Block.margin_ofLines, Line.filterMap_comments]
    exact lists_nil
  have hlinkage : typeForm.Lists linkage.margin [] := lists_of_filter (by decide)
  have hfunctions {ds : List Def} {make : Def → Except Fault Block} {bs : List Block}
      (hmake : ∀ d, typeForm.Written [] (make d)) (hbs : ds.mapM make = .ok bs) :
      typeForm.Lists (Block.paragraphs bs).margin [] := by
    rw [Block.margin_paragraphs]
    exact Written.mapM hmake hbs
  rw [← append_nil types]
  split
  · refine .bind fun functions huser => .bind fun imports himports => .ok ?_
    have hheaders : typeForm.Lists generalHeaders.margin [] := lists_of_filter (by decide)
    have hmode : typeForm.Lists (Block.ofLines [.of "#define BITPROTO_OPTIMIZATION_MODE 1"]).margin [] :=
      lists_of_filter (by decide)
    rw [Block.margin_paragraphs]
    exact lists_blocks (.cons hstart <| .cons hcomments <| .cons (lists_guard p.file) <| .cons hheaders <|
      .cons hlinkage <| .cons (types_imports _ _ himports) <| .cons hmode <| .cons htypes <|
      .cons (hfunctions (types_userFunctions p) huser) .nil)
  · refine .bind fun imports himports => .bind fun functions huser => .bind fun callbacks hlibrary => .ok ?_
    have hheaders : typeForm.Lists libraryHeaders.margin [] := lists_of_filter (by decide)
    rw [Block.margin_paragraphs]
    exact lists_blocks (.cons hstart <| .cons hcomments <| .cons (lists_guard p.file) <| .cons hheaders <|
      .cons hlinkage <| .cons (types_imports _ _ himports) <| .cons htypes <|
      .cons (hfunctions (types_userFunctions p) huser) <|
      .cons (hfunctions (types_libraryFunctions p.env) hlibrary) .nil)

end CHeader

/-! ### Functions -/

namespace CSource

open CHeader CLibrary LineForm

variable {env : Env} {d : Def} {b : Block} {bs : List Block} {name signature : String}

theorem lists_function (h : IsSignature name signature) (body : List String) :
    functionForm.Lists (function signature body).margin [name] := by
  have hbody : (body.map (Line.inset 4)).filterMap (Line.margin? 0) = [] := by
    simp [Line.inset, Line.margin?]
  have hclose : functionForm.Lists ["\x7d" ++ ""] [] := lists_other (by decide) ""
  rw [function, Block.margin_ofLines, filterMap_append, filterMap_append, hbody]
  have hopen : functionForm.Declares name (signature ++ " \x7b") := ⟨signature, h, rfl⟩
  exact (lists_single hopen).append hclose

/-- The functions that do one thing for the arrays behind some definitions. -/
def arrayNames (env : Env) (start : String) (ds : List Def) : List String :=
  (ds.filter Def.holdsArray).map fun d => start ++ arrayNameOr env d

theorem holdsArray_eq (d : Def) : d.holdsArray = match d.ty?.getD default with
    | .array _ _ _ _ => true
    | _ => false := by
  cases d with
  | field h t n => cases t <;> rfl
  | typeAlias h t => cases t <;> rfl
  | _ => rfl

theorem written_arrayFunction (t : Ty) (call : String) (h : IsSignature name signature) :
    functionForm.Written [name] (arrayFunction env t signature call) :=
  .bind fun _ _ => .ok (lists_function h _)

/-- What both functions for arrays have in common: they are written only for arrays. -/
theorem lists_ofArray {start : String} (word call : String) {sign : String → String}
    (hsign : ∀ name, IsSignature name (sign name))
    (hb : (match d.ty?.getD default with
      | .array _ _ _ _ => do
        let name ← arrayFunctionName start word env d
        return [← arrayFunction env (d.ty?.getD default) (sign name) call]
      | _ => .ok []) = .ok bs) :
    functionForm.Lists (bs.flatMap Block.margin) (arrayNames env start [d]) := by
  have hd := holdsArray_eq d
  cases ht : d.ty?.getD default with
  | array o element cap ext =>
    rw [ht] at hb hd
    obtain ⟨name, hname, hb⟩ := exists_ok_of_bind hb
    obtain ⟨b, hb', hb⟩ := exists_ok_of_bind hb
    obtain rfl := Except.ok.inj hb
    rw [arrayNames, filter_cons_of_pos hd, flatMap_singleton]
    rw [eq_of_arrayFunctionName hd hname] at hb'
    exact written_arrayFunction _ call (hsign _) b hb'
  | _ =>
    rw [ht] at hb hd
    obtain rfl := Except.ok.inj hb
    rw [arrayNames, filter_cons_of_neg (by simp [hd])]
    exact lists_nil

theorem lists_arrayProcessor (d : Def) (hb : arrayProcessor env (d.ty?.getD default) d = .ok bs) :
    functionForm.Lists (bs.flatMap Block.margin) (arrayNames env processorStart [d]) := by
  refine lists_ofArray "processor" "BpEndecodeArray" isSignature_processor (Eq.trans ?_ hb)
  unfold arrayProcessor
  cases d.ty?.getD default <;> rfl

theorem lists_arrayFormatter (d : Def) (hb : arrayFormatter env (d.ty?.getD default) d = .ok bs) :
    functionForm.Lists (bs.flatMap Block.margin) (arrayNames env jsonStart [d]) := by
  refine lists_ofArray "json_formatter" "BpJsonFormatArray" isSignature_formatter (Eq.trans ?_ hb)
  unfold arrayFormatter
  cases d.ty?.getD default <;> rfl

/-- **The functions for the arrays** behind fields, one field after another. -/
theorem lists_forFields {start : String} {make : Def → Except Fault (List Block)} {fs : List Def}
    {bss : List (List Block)}
    (hmake : ∀ f bs, make f = .ok bs → functionForm.Lists (bs.flatMap Block.margin) (arrayNames env start [f]))
    (h : fs.mapM make = .ok bss) :
    functionForm.Lists (bss.flatten.flatMap Block.margin) (arrayNames env start fs) := by
  have hall := lists_of_mapM hmake h
  unfold arrayNames at hall ⊢
  rwa [flatMap_filter_single, ← flatMap_assoc, flatMap_id'] at hall

theorem written_aliasFunction (call : String) (h : IsSignature name signature) :
    functionForm.Written [name] (aliasFunction env d signature call) :=
  .bind fun _ _ => .ok (lists_function h _)

/-- The definitions behind which the arrays stand for which a definition has functions. -/
def arraysOf : Def → List Def
  | .message h ext ms => (Def.message h ext ms).sortedFields
  | .typeAlias h target => [.typeAlias h target]
  | _ => []

/-- **The functions for a definition**, in the order in which they are written. -/
def namesFor (env : Env) (d : Def) : List String :=
  arrayNames env processorStart (arraysOf d) ++ arrayNames env jsonStart (arraysOf d) ++
    match d with
    | .typeAlias _ _ => callbackStarts.map (· ++ nameOr env d)
    | .message _ _ _ =>
      ["BpFieldDescriptorsInit", processorStart, jsonStart, "Encode", "Decode", "Json"].map (· ++ nameOr env d)
    | _ => []

theorem written_typeAlias (h : Header) (target : Ty) :
    functionForm.Written (namesFor env (.typeAlias h target)) (typeAlias env (.typeAlias h target) target) := by
  refine .bind fun processor hprocessor => .bind fun formatter hformatter => ?_
  obtain rfl := eq_of_functionName hprocessor
  obtain rfl := eq_of_functionName hformatter
  refine .bind fun processors hprocessors => .bind fun formatters hformatters => .bind fun process hprocess =>
    .bind fun format hformat => .ok ?_
  have hprocess := written_aliasFunction _ (isSignature_processor _) _ hprocess
  have hformat := written_aliasFunction _ (isSignature_formatter _) _ hformat
  rw [Block.margin_paragraphs, flatMap_append, flatMap_append]
  exact ((lists_arrayProcessor (.typeAlias h target) hprocessors).append
    (lists_arrayFormatter (.typeAlias h target) hformatters)).append (lists_blocks (.cons hprocess (.cons hformat .nil)))

theorem written_descriptorFunction (call : String) (h : IsSignature name signature) :
    functionForm.Written [name] (descriptorFunction env d signature call) :=
  .bind fun _ _ => .bind fun _ _ => .ok (lists_function h _)

theorem written_fieldsInit : functionForm.Written ["BpFieldDescriptorsInit" ++ nameOr env d] (fieldsInit env d) := by
  refine .bind fun name hname => .bind fun type _ => .bind fun body _ => .ok ?_
  rw [← eq_of_functionName hname]
  exact lists_function (isSignature_fieldsInit name type) _

theorem written_message (h : Header) (ext : Bool) (ms : Members) :
    functionForm.Written (namesFor env (.message h ext ms)) (message env (.message h ext ms)) := by
  refine .bind fun name hname => .bind fun type _ => .bind fun processor hprocessor =>
    .bind fun formatter hformatter => ?_
  obtain rfl := eq_nameOr hname
  obtain rfl := eq_of_functionName hprocessor
  obtain rfl := eq_of_functionName hformatter
  refine .bind fun processors hprocessors => .bind fun formatters hformatters => .bind fun init hinit =>
    .bind fun process hprocess => .bind fun format hformat => .ok ?_
  have hprocessors : functionForm.Lists (Block.paragraphs processors.flatten).margin
      (arrayNames env processorStart (arraysOf (.message h ext ms))) := by
    rw [Block.margin_paragraphs]
    exact lists_forFields (fun f bs => lists_arrayProcessor f) hprocessors
  have hformatters : functionForm.Lists (Block.paragraphs formatters.flatten).margin
      (arrayNames env jsonStart (arraysOf (.message h ext ms))) := by
    rw [Block.margin_paragraphs]
    exact lists_forFields (fun f bs => lists_arrayFormatter f) hformatters
  rw [Block.margin_paragraphs, namesFor, append_assoc]
  exact lists_blocks (.cons hprocessors <| .cons hformatters <| .cons (written_fieldsInit _ hinit) <|
    .cons (written_descriptorFunction _ (isSignature_processor _) _ hprocess) <|
    .cons (written_descriptorFunction _ (isSignature_formatter _) _ hformat) <|
    .cons (lists_function (isSignature_encode _ type) _) <| .cons (lists_function (isSignature_decode _ type) _) <|
    .cons (lists_function (isSignature_json _ type) _) .nil)

/-- **What a definition adds to the source** with calls to the library. -/
theorem lists_functions {p : OutputPlan} {o : Option Block} (hp : p.optimized = false) (hb : functions p d = .ok o) :
    functionForm.Lists (o.toList.flatMap Block.margin) (namesFor p.env d) := by
  cases d with
  | typeAlias h target =>
    rw [functions, hp] at hb
    exact (written_typeAlias h target).map_some hb
  | message h ext ms =>
    rw [functions, hp] at hb
    exact (written_message h ext ms).map_some hb
  | _ =>
    obtain rfl := Except.ok.inj hb
    exact lists_nil

/-! ### All functions -/

/-- How often a name stands among the functions with a start: those of definitions, and those of arrays. -/
def countAt (env : Env) (ks : List Kind) (ds arrays : List Def) (x start : String) : Nat :=
  ((ofKinds ks ds).map (start ++ nameOr env ·)).count x + (arrayNames env start arrays).count x

theorem countAt_cons (env : Env) (ks : List Kind) (d : Def) (ds arrays arrays' : List Def) (x start : String) :
    countAt env ks (d :: ds) (arrays ++ arrays') x start =
      countAt env ks [d] arrays x start + countAt env ks ds arrays' x start := by
  rw [countAt, countAt, countAt, ofKinds_cons, map_append, arrayNames, filter_append, map_append, count_append,
    count_append, ← arrayNames, ← arrayNames]
  omega

theorem count_namesFor (env : Env) (d : Def) (x : String) : (namesFor env d).count x =
    (callbackStarts.map (countAt env [.typeAlias, .message] [d] (arraysOf d) x)).sum +
      (messageStarts.map (countAt env [.message] [d] [] x)).sum := by
  cases d with
  | option h k v => rcases k with _ | (_ | _ | _) <;> rfl
  | constant h k v => rcases k with _ | (_ | _ | _) <;> rfl
  | _ =>
    simp [namesFor, countAt, ofKinds, Def.kind, arrayNames, callbackStarts, messageStarts, count_append, count_cons] <;>
      omega

theorem count_names (env : Env) (ds : List Def) (x : String) : (ds.flatMap (namesFor env)).count x =
    (callbackStarts.map (countAt env [.typeAlias, .message] ds (ds.flatMap arraysOf) x)).sum +
      (messageStarts.map (countAt env [.message] ds [] x)).sum := by
  induction ds with
  | nil => rfl
  | cons d ds ih =>
    have hmessages := countAt_cons env [.message] d ds [] []
    rw [flatMap_cons, flatMap_cons, count_append, ih, count_namesFor]
    simp only [callbackStarts, messageStarts, map_cons, map_nil, sum_cons, sum_nil, countAt_cons, append_nil] at *
    simp only [hmessages]
    omega

/-- **The functions for some definitions** are those that are listed for them, if the arrays behind fields are. -/
theorem perm_functions {ds : List Def} (env : Env)
    (harrays : (ds.filter Def.holdsArray).Perm ((ds.flatMap arraysOf).filter Def.holdsArray)) :
    (ds.flatMap (namesFor env)).Perm ((callbackStarts.map (·, (ofKinds [.typeAlias, .message] ds).map (nameOr env) ++
        (ds.filter Def.holdsArray).map (arrayNameOr env)) ++
      messageStarts.map (·, (ofKinds [.message] ds).map (nameOr env))).flatMap fun f => f.2.map (f.1 ++ ·)) := by
  refine perm_iff_count.2 fun x => ?_
  have hcount (s : String) : (arrayNames env s (ds.flatMap arraysOf)).count x =
      ((ds.filter Def.holdsArray).map (s ++ arrayNameOr env ·)).count x := ((harrays.map _).count_eq x).symm
  have hnil (s : String) : (arrayNames env s []).count x = 0 := rfl
  rw [count_names]
  simp only [countAt, hcount, hnil, Nat.add_zero, callbackStarts, messageStarts, map_cons, map_nil, sum_cons,
    sum_nil, flatMap_append, flatMap_cons,
    flatMap_nil, count_append, map_append, map_map, Function.comp_def, count_nil]

/-! ### Arrays behind fields -/

def isArrayField : Def → Bool
  | .field _ (.array _ _ _ _) _ => true
  | _ => false

theorem isArrayField_eq (d : Def) : isArrayField d = (d.holdsArray && d.isA .messageField) := by
  cases d with
  | field h t n => cases t <;> rfl
  | typeAlias h t => cases t <;> rfl
  | _ => rfl

/-- Only messages have fields behind which arrays stand. -/
def HoldsFields (d : Def) : Prop := ∀ m ∈ d.members, isArrayField m.2 = true → d.isA .message = true

/-- What one definition contributes: the arrays behind its fields, and itself. -/
theorem perm_node (h : HoldsFields d) : ((d.members.map (·.2)).filter isArrayField ++ [d].filter Def.holdsArray).Perm
    ((arraysOf d).filter Def.holdsArray ++ [d].filter isArrayField) := by
  have hnone (hd : d.isA .message = false) : (d.members.map (·.2)).filter isArrayField = [] := by
    refine filter_eq_nil_iff.2 fun e he hfield => ?_
    obtain ⟨m, hm, rfl⟩ := mem_map.1 he
    rw [h m hm hfield] at hd
    cases hd
  cases d with
  | message hd ext ms =>
    have hfields : ((Def.message hd ext ms).members.map (·.2)).filter isArrayField =
      ((Def.message hd ext ms).fields).filter Def.holdsArray := by
      rw [Def.fields, Def.direct, filter_map, filter_map, filter_filter]
      exact congrArg _ (filter_congr fun m _ => isArrayField_eq m.2)
    have hsorted : ((Def.message hd ext ms).sortedFields).Perm (Def.message hd ext ms).fields := mergeSort_perm ..
    have hself : [Def.message hd ext ms].filter Def.holdsArray = [] := rfl
    have hself' : [Def.message hd ext ms].filter isArrayField = [] := rfl
    rw [hself, hself', append_nil, append_nil, hfields]
    exact (hsorted.filter _).symm
  | typeAlias hd t | field hd t n => cases t <;> rfl
  | enum hd o cap ms =>
    rw [hnone rfl]
    rfl
  | proto hd ms =>
    rw [hnone rfl]
    rfl
  | _ => rfl

mutual

/-- Arrays behind fields inside a definition: its own ones, and those of the messages inside it. -/
theorem perm_within : ∀ d : Def, (∀ m ∈ d.within .definition, HoldsFields m.2) →
    (((d.within .definition).map (·.2)).filter Def.holdsArray).Perm
      ((((d.within .definition).map (·.2)).flatMap arraysOf).filter Def.holdsArray ++
        (d.members.map (·.2)).filter isArrayField)
  | .enum _ _ _ ms, h => perm_membersWithin ms h
  | .message _ _ ms, h => perm_membersWithin ms h
  | .proto _ ms, h => perm_membersWithin ms h
  | .option _ _ _, _ | .constant _ _ _, _ | .typeAlias _ _, _ | .enumField _ _, _ | .field _ _ _, _ => .nil

theorem perm_membersWithin : ∀ ms : List (String × Def), (∀ m ∈ membersWithin .definition ms, HoldsFields m.2) →
    (((membersWithin .definition ms).map (·.2)).filter Def.holdsArray).Perm
      ((((membersWithin .definition ms).map (·.2)).flatMap arraysOf).filter Def.holdsArray ++
        (ms.map (·.2)).filter isArrayField)
  | [], _ => .nil
  | (n, d) :: ms, h => by
    have hlist : membersWithin .definition ((n, d) :: ms) =
        d.within .definition ++ [(n, d)] ++ membersWithin .definition ms := by
      rw [Def.membersWithin_eq_flatMap, flatMap_cons, ← Def.membersWithin_eq_flatMap]
    rw [hlist] at h ⊢
    have hinside := perm_within d fun m hm => h m (by simp [hm])
    have hrest := perm_membersWithin ms fun m hm => h m (by simp [hm])
    have hself : HoldsFields d := h (n, d) (by simp)
    refine perm_iff_count.2 fun x => ?_
    have hinside := hinside.count_eq x
    have hrest := hrest.count_eq x
    have hself := (perm_node hself).count_eq x
    simp only [map_append, map_cons, map_nil, filter_append, flatMap_append, flatMap_singleton, count_append] at *
    have hcons : (d :: ms.map (·.2)).filter isArrayField = [d].filter isArrayField ++
      (ms.map (·.2)).filter isArrayField :=
      filter_append [d] _
    rw [hcons, count_append]
    omega

end

/-- **A field has a message around it** that C code finds only in a message. -/
theorem isA_message_of_messageOf {p : Def} (hp : p.LaidOut) (hd : p.Contains d) {m : String × Def} (hm : m ∈ d.members)
    {message : Def} (h : Env.messageOf ⟨[p]⟩ m.2 = .ok message) : d.isA .message = true := by
  have hscope : d.isScope = true := by
    cases d <;> first | rfl | cases hm
  obtain ⟨k, hk⟩ := Option.isSome_iff_exists.1 hscope
  rw [Env.messageOf, hp.nests_of_contains hd m hm, getLast?_concat, Reading.frameRef_of_kind hk] at h
  simp only [Env.scope?_singleton, Def.scope?_of_contains hp.numbered hd hscope] at h
  cases d <;> first | rfl | cases h

/-- **The arrays of a file** stand behind its aliases and the fields of its messages. -/
theorem arrays_perm {p : Def} {ds : List Def} {names : List String} (hp : Reader.Accepts p)
    (hds : p.ownDefinitions = .ok ds) (hnames : callbacks ⟨[p]⟩ ds "" = .ok names) :
    (ds.filter Def.holdsArray).Perm ((ds.flatMap arraysOf).filter Def.holdsArray) := by
  obtain ⟨hlaid, -⟩ := hp.laidOut
  have hlist : ds = ((membersWithin .definition (p.members.filter (isOwn p.id))).map (·.2)) := by
    rw [← filter_isOwn_eq hp.proper]
    rw [Def.ownDefinitions, select_eq_filter hp.proper] at hds
    exact (Except.ok.inj hds).symm
  obtain ⟨_, -, hnames⟩ := exists_ok_of_bind hnames
  obtain ⟨_, harrays, -⟩ := exists_ok_of_bind hnames
  have hholds {d : Def} (hd : p.Contains d) {m : String × Def} (hm : m ∈ d.members) (hown : m.2 ∈ ds)
      (hfield : isArrayField m.2 = true) : d.isA .message = true := by
    rw [isArrayField_eq, Bool.and_eq_true] at hfield
    obtain ⟨name, hname⟩ := exists_ok_of_mapM harrays m.2 (mem_filter.2 ⟨hown, hfield.1⟩)
    obtain ⟨h, t, n, hm'⟩ := Def.eq_field_of_isA hfield.2
    rw [hm'] at hname
    obtain ⟨message, hmessage, -⟩ := exists_ok_of_bind hname
    exact isA_message_of_messageOf hlaid hd hm (hm' ▸ hmessage)
  have hinside : ∀ m ∈ membersWithin .definition (p.members.filter (isOwn p.id)), HoldsFields m.2 := by
    intro m hm e he hfield
    have hwithin : m ∈ (Def.proto {} (p.members.filter (isOwn p.id))).within .definition := hm
    have hown : e.2 ∈ ds := hlist ▸ mem_map_of_mem (Def.mem_within_trans hwithin (Def.mem_within_of_mem he))
    rw [← filter_isOwn_eq hp.proper] at hm
    exact hholds (.inr ⟨m.1, mem_of_mem_filter hm⟩) he hown hfield
  have hperm := perm_membersWithin (p.members.filter (isOwn p.id)) hinside
  have hnone : ((p.members.filter (isOwn p.id)).map (·.2)).filter isArrayField = [] := by
    refine filter_eq_nil_iff.2 fun d hd hfield => ?_
    obtain ⟨m, hm, rfl⟩ := mem_map.1 hd
    have hown : m.2 ∈ ds := hlist ▸ mem_map_of_mem (Def.mem_membersWithin hm (.inr rfl))
    have hmessage := hholds (.inl rfl) (mem_of_mem_filter hm) hown hfield
    have hkind := hlaid.kind
    have hfile : p.isA .message = false := by
      cases p <;> first | rfl | cases hkind
    rw [hfile] at hmessage
    cases hmessage
  rw [hnone, append_nil, ← hlist] at hperm
  exact hperm

/-- **The functions that a source defines**, with calls to the library, are those that are listed for the file. -/
theorem functions_of_block {p : OutputPlan} {names : CNames} (hp : Reader.Accepts p.file) (henv : p.env = ⟨[p.file]⟩)
    (hmode : p.optimized = false) (hnames : p.file.cNames p.env = .ok names) :
    ∃ written, written.Perm names.functions ∧ functionForm.Written written (block p) := by
  obtain ⟨ds, messages, hds, hcallbacks, hmessages, -, hfunctions⟩ := Def.functions_of_cNames hnames
  have hperm := perm_functions p.env (arrays_perm hp hds (henv ▸ hcallbacks))
  rw [← callbacks_eq_append hcallbacks, ← eq_map_of_mapM (fun _ _ _ => eq_nameOr) hmessages, ← hfunctions] at hperm
  refine ⟨_, hperm, .bind fun ds' hds' => .bind fun bs hbs => .ok ?_⟩
  obtain rfl := Except.ok.inj (hds.symm.trans hds')
  have hnotice : functionForm.Lists (Block.notice 0).margin [] := lists_nil
  have hincludes (header : String) : functionForm.Lists
      (Block.ofLines [.of "#include \"bitproto.h\"", .of ("#include \"" ++ header ++ "\"")]).margin [] := by
    rw [Block.margin_ofLines, String.append_assoc]
    exact (lists_of_filter (by decide) : functionForm.Lists ["#include \"bitproto.h\""] []).append
      (lists_other (by decide) _)
  have hblocks : functionForm.Lists (Block.paragraphs bs).margin (ds.flatMap (namesFor p.env)) := by
    rw [Block.margin_paragraphs]
    exact lists_forDefinitions (fun _ _ => lists_functions hmode) hbs
  rw [Block.margin_paragraphs, hmode, ← append_nil (ds.flatMap (namesFor p.env))]
  exact lists_blocks (.cons hnotice <| .cons (hincludes _) <| .cons hblocks .nil)

end CSource

end BitSchema
