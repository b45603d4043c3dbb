import BitSchema.Reader.Statement

/-!
# Plain steps

Names, references, calculations, capacities and the ends of statements are read in one way: the next token is looked at,
and it is passed, or the step fails.  Calculations also look up constants.  Such steps are *plain*: they go past tokens
that are no braces and change nothing else.

`Plain` says how plain steps are built.  What is to be shown of them is shown by induction on `Plain`, and is then true
of all functions that read in this way.
-/

namespace BitSchema

def Lexeme.isBrace (l : Lexeme) : Bool := l = .symbol '\x7b' || l = .symbol '\x7d'

namespace Reading

/-- Constants with the same value. -/
def SameValue (d d' : Def) : Prop := integerOf? d' = integerOf? d ∧ d'.literal? = d.literal?

/-- **Plain steps**, given which tokens occur, and the next token if it has been looked at.  Two of them are compared,
which may find different constants with the same value. -/
inductive Plain (Occurs : Token → Prop) : ∀ {α : Type}, Option Token → Reading α → Reading α → Prop
  | pure {α : Type} (a : α) : Plain Occurs none (pure a) (pure a)
  | bind {α β : Type} {x x' : Reading α} {f f' : α → Reading β} (hx : Plain Occurs none x x')
      (hf : ∀ a, Plain Occurs none (f a) (f' a)) : Plain Occurs none (x >>= f) (x' >>= f')
  | peek {β : Type} {f f' : Option Token → Reading β}
      (hf : ∀ t, (∀ tok ∈ t, Occurs tok) → Plain Occurs t (f t) (f' t)) : Plain Occurs none (peek >>= f) (peek >>= f')
  | ahead {α : Type} {t : Option Token} {x x' : Reading α} (hx : Plain Occurs none x x') : Plain Occurs t x x'
  | advance {β : Type} {x x' : Reading β} {tok : Token} (htok : tok.lexeme.isBrace = false)
      (hx : Plain Occurs none x x') : Plain Occurs (some tok) (advance >>= fun _ => x) (advance >>= fun _ => x')
  | unexpected {α : Type} {t : Option Token} (ht : ∀ tok ∈ t, Occurs tok) :
      Plain Occurs none (unexpected t : Reading α) (unexpected t)
  | failAt {α : Type} {problem : Problem} {note token token' : String} {line : Nat} (h : problem.family = .grammar) :
      Plain Occurs none (failAt problem note token line : Reading α) (failAt problem note token' line)
  | apply {t : Option Token} {op : Operator} {left right : Int} (ht : ∀ tok ∈ t, Occurs tok)
      (hop : Operator.of? t = some op) :
      Plain Occurs none (ofExcept (op.apply left right)) (ofExcept (op.apply left right))
  | rest {β : Type} {f f' : Nat → Reading β} (hf : ∀ n, Plain Occurs none (f n) (f' n)) :
      Plain Occurs none (get >>= fun s => f s.rest.length) (get >>= fun s => f' s.rest.length)
  | constant {β : Type} {f f' : Def → Reading β} {names : List String} {first : Token}
      (hf : ∀ d d', SameValue d d' → Plain Occurs none (f d) (f' d')) :
      Plain Occurs none (lookupConstant names first >>= f) (lookupConstant names first >>= f')

variable {α β : Type} {Occurs : Token → Prop} {name : String} {first : Token}

/-! ### Single tokens -/

theorem isBrace_of_wanted {wanted : Lexeme → Option α} (hopen : wanted (.symbol '\x7b') = none)
    (hclose : wanted (.symbol '\x7d') = none) {l : Lexeme} {a : α} (h : wanted l = some a) : l.isBrace = false := by
  rw [Lexeme.isBrace, Bool.or_eq_false_iff, decide_eq_false_iff_not, decide_eq_false_iff_not]
  constructor
  · rintro rfl
    cases hopen.symm.trans h
  · rintro rfl
    cases hclose.symm.trans h

/-- Going past a token of a form that braces do not have. -/
theorem plain_expect {wanted : Lexeme → Option α} (hopen : wanted (.symbol '\x7b') = none)
    (hclose : wanted (.symbol '\x7d') = none) : Plain Occurs none (expect wanted) (expect wanted) := by
  refine .peek fun t ht => ?_
  split
  · split
    · next ha => exact .advance (isBrace_of_wanted hopen hclose ha) (.pure _)
    · exact .ahead (.unexpected ht)
  · exact .unexpected ht

theorem wanted_symbol {c c' : Char} (h : c ≠ c') : (if Lexeme.symbol c = .symbol c' then some () else none) = none :=
  if_neg fun hsame => h (Lexeme.symbol.inj hsame)

theorem plain_expectSymbol {c : Char} (hc : '\x7b' ≠ c ∧ '\x7d' ≠ c) :
    Plain Occurs none (expectSymbol c) (expectSymbol c) :=
  (plain_expect (wanted_symbol hc.1) (wanted_symbol hc.2)).bind fun _ => .pure _

theorem plain_expectName : Plain Occurs none expectName expectName := plain_expect rfl rfl

/-- Going on if the next token is one of those that may follow. -/
theorem plain_check {c : Option Token → Bool} {x x' : Reading α} (hx : Plain Occurs none x x') :
    Plain Occurs none (do let t ← peek; if c t then x else unexpected t)
      (do let t ← peek; if c t then x' else unexpected t) := by
  refine .peek fun t ht => .ahead ?_
  split
  · exact hx
  · exact .unexpected ht

/-- Going past a symbol that may stand there. -/
theorem plain_optional {c : Char} {x x' y y' : Reading α} (hc : Lexeme.isBrace (.symbol c) = false)
    (hx : Plain Occurs none x x') (hy : Plain Occurs none y y') :
    Plain Occurs none (do if isSymbol c (← peek) then advance; x else y)
      (do if isSymbol c (← peek) then advance; x' else y') := by
  refine .peek fun t _ => ?_
  cases t with
  | none => exact hy
  | some tok =>
    split
    · next h =>
      have htok : tok.lexeme = .symbol c := by simpa [isSymbol] using h
      exact .advance (by rw [htok]; exact hc) hx
    · exact hy.ahead

theorem plain_endStatement {follows : Option Token → Bool} :
    Plain Occurs none (endStatement follows) (endStatement follows) := by
  have hfollows : Plain Occurs none (do let t ← peek; if !follows t then unexpected t : Reading Unit)
      (do let t ← peek; if !follows t then unexpected t : Reading Unit) := by
    refine .peek fun t ht => .ahead ?_
    split
    · exact .unexpected ht
    · exact .pure _
  exact plain_optional rfl hfollows hfollows

/-! ### References and calculations -/

theorem plain_readDots (fuel : Nat) : Plain Occurs none (readDots fuel) (readDots fuel) := by
  induction fuel with
  | zero => exact .pure _
  | succ fuel ih => exact plain_optional rfl (plain_expectName.bind fun _ => ih.bind fun _ => .pure _) (.pure _)

theorem plain_readDotted {first : String} : Plain Occurs none (readDotted first) (readDotted first) :=
  .rest (f := fun n => readDots n >>= fun names => pure (first :: names)) fun n =>
    (plain_readDots n).bind fun _ => .pure _

/-- **A reference to a constant**, of which only the value matters. -/
theorem plain_readConstant {f f' : Def → Reading β} (hf : ∀ d d', SameValue d d' → Plain Occurs none (f d) (f' d')) :
    Plain Occurs none (readConstant name first >>= f) (readConstant name first >>= f') := by
  simp only [readConstant, bind_assoc]
  refine plain_readDotted.bind fun names => .peek fun t ht => .ahead ?_
  split
  · exact .constant hf
  · exact (Plain.unexpected ht).bind fun d => hf d d ⟨rfl, rfl⟩

theorem plain_integerOperand {d d' : Def} (h : SameValue d d') :
    Plain Occurs none (integerOperand d first) (integerOperand d' first) := by
  unfold integerOperand
  rw [h.1]
  split
  · exact .pure _
  · exact .failAt rfl

/-- **Operands and operations**, which are read by turns. -/
theorem plain_readOperand_readOperations (fuel : Nat) :
    Plain Occurs none (readOperand fuel) (readOperand fuel) ∧
      ∀ rank left, Plain Occurs none (readOperations fuel rank left) (readOperations fuel rank left) := by
  induction fuel with
  | zero => exact ⟨.unexpected (by simp), fun _ _ => .pure _⟩
  | succ fuel ih =>
    obtain ⟨hoperand, hoperations⟩ := ih
    refine ⟨?_, fun rank left => ?_⟩
    · rw [readOperand]
      refine .peek fun t ht => ?_
      split
      · exact .unexpected ht
      · split
        · next h => exact .advance (by rw [h]; rfl) (.pure _)
        · next h => exact .advance (by rw [h]; rfl) (.pure _)
        · next h =>
          exact .advance (by rw [h]; rfl) (plain_readConstant fun _ _ hd => plain_check (plain_integerOperand hd))
        · next c h =>
          split
          · next hc =>
            exact .advance (by rw [h, hc]; rfl) (hoperand.bind fun _ => (hoperations _ _).bind fun _ =>
              (plain_expectSymbol (by decide)).bind fun _ => .pure _)
          · exact .ahead (.unexpected ht)
        · exact .ahead (.unexpected ht)
    · rw [readOperations]
      refine .peek fun t ht => ?_
      split
      · next op hop =>
        split
        · cases t with
          | none => cases hop
          | some tok =>
            have htok : tok.lexeme.isBrace = false := by
              dsimp only [Operator.of?] at hop
              split at hop <;> simp_all [Lexeme.isBrace]
            exact .advance htok (hoperand.bind fun _ => (hoperations _ _).bind fun _ => plain_check
              ((Plain.apply ht hop).bind fun _ => hoperations _ _))
        · exact .ahead (.pure _)
      · exact .ahead (.pure _)

theorem plain_readOperations {fuel rank : Nat} {left : Int} :
    Plain Occurs none (readOperations fuel rank left) (readOperations fuel rank left) :=
  (plain_readOperand_readOperations fuel).2 rank left

theorem plain_readCalculation : Plain Occurs none readCalculation readCalculation :=
  .rest (f := fun n => readOperand (n + 1) >>= readOperations (n + 1) 1) fun n =>
    (plain_readOperand_readOperations (n + 1)).1.bind fun _ => plain_readOperations

theorem plain_readConstantValue : Plain Occurs none readConstantValue readConstantValue := by
  refine .peek fun t ht => ?_
  split
  · exact .unexpected ht
  · split
    · next h => exact .advance (by rw [h]; rfl) (.pure _)
    · next h => exact .advance (by rw [h]; rfl) (.pure _)
    · next h =>
      refine .advance (by rw [h]; rfl) (plain_readConstant fun d d' hd => .peek fun t ht => .ahead ?_)
      rw [hd.2]
      split
      · exact (plain_integerOperand hd).bind fun v =>
          .rest (f := fun n => readOperations (n + 1) 1 v >>= fun r => pure (Literal.int r)) fun n =>
            plain_readOperations.bind fun _ => .pure _
      · split
        · exact .pure _
        · exact .unexpected ht
    · exact .ahead (plain_readCalculation.bind fun _ => .pure _)

/-! ### Capacities, options and imports -/

theorem plain_readCapacity : Plain Occurs none readCapacity readCapacity := by
  refine .peek fun t ht => ?_
  split
  · exact .unexpected ht
  · split
    · next h => exact .advance (by rw [h]; rfl) (.pure _)
    · next h =>
      refine .advance (by rw [h]; rfl) (plain_readConstant fun d d' hd => ?_)
      rw [hd.1]
      split
      · exact .pure _
      · exact .failAt rfl
    · exact .ahead (.unexpected ht)

theorem plain_readOptionValue : Plain Occurs none readOptionValue readOptionValue :=
  (plain_expect rfl rfl).bind fun _ => .pure _

theorem plain_readTarget : Plain Occurs none readImport.readTarget readImport.readTarget := by
  refine .peek fun t ht => ?_
  split
  · exact .unexpected ht
  · split
    · next h => exact .advance (by rw [h]; rfl) (.pure _)
    · next h => exact .advance (by rw [h]; rfl) ((plain_expect rfl rfl).bind fun _ => .pure _)
    · exact .ahead (.unexpected ht)

end Reading

end BitSchema
