import Mathlib.Logic.Relation
import Cnegative.Syntax.Text
import Cnegative.Check.Accepted

namespace Cnegative

namespace Backend

/-! The global names of `llvm_text.c`. -/

/-- One digit of `%02X`. -/
def hexDigit (value : UInt8) : UInt8 :=
  if value < 10 then '0'.toUInt8 + value else 'A'.toUInt8 + (value - 10)

def emitIdentifierPart : Text → Text
  | [] => []
  | ch :: rest =>
      (if isAsciiAlpha ch || isAsciiDigit ch || ch == underscore then [ch]
        else [underscore, 'x'.toUInt8, hexDigit (ch / 16), hexDigit (ch % 16), underscore]) ++
        emitIdentifierPart rest

def emitFunctionSymbol (moduleName functionName : Text) : Text :=
  Name.text "@cn_" ++ emitIdentifierPart moduleName ++ Name.text "__" ++
    emitIdentifierPart functionName

def emitNamedType (moduleName name : Text) : Text :=
  Name.text "%cn_" ++ emitIdentifierPart moduleName ++ Name.text "__" ++ emitIdentifierPart name

/-! The names a source can declare. -/

def isWordByte (ch : UInt8) : Bool :=
  isAsciiAlpha ch || isAsciiDigit ch || ch == underscore

def dot : UInt8 := '.'.toUInt8

structure IsIdentifier (text : Text) : Prop where
  nonempty : text ≠ []
  head : ∀ ch ∈ text.head?, isAsciiDigit ch = false
  word : ∀ ch ∈ text, isWordByte ch = true

inductive IsModuleName : Text → Prop where
  | single {segment : Text} (hsegment : IsIdentifier segment) : IsModuleName segment
  | qualified {segment rest : Text} (hsegment : IsIdentifier segment)
      (hrest : IsModuleName rest) : IsModuleName (segment ++ dot :: rest)

theorem IsModuleName.bytes {text : Text} (hname : IsModuleName text) :
    ∀ ch ∈ text, isWordByte ch = true ∨ ch = dot := by
  induction hname with
  | single hsegment => exact fun ch hmem => Or.inl (hsegment.word ch hmem)
  | qualified hsegment _ ih =>
      intro ch hmem
      rcases List.mem_append.mp hmem with hleft | hright
      · exact Or.inl (hsegment.word ch hleft)
      · rcases List.mem_cons.mp hright with rfl | htail
        · exact Or.inr rfl
        · exact ih ch htail

/-! Module names that the encoding cannot tell apart. -/

def dotSpelling : Text :=
  Name.text "_x2E_"

def SpellsDot (first second : Text) : Prop :=
  ∃ before after, first = before ++ dot :: after ∧ second = before ++ dotSpelling ++ after

/-- Both names arise from one another by exchanging dots with the text `_x2E_`. -/
def SameSpelling : Text → Text → Prop :=
  Relation.EqvGen SpellsDot

theorem emitIdentifierPart_append (first second : Text) :
    emitIdentifierPart (first ++ second) =
      emitIdentifierPart first ++ emitIdentifierPart second := by
  induction first with
  | nil => rfl
  | cons ch rest ih =>
      simp only [List.cons_append, emitIdentifierPart, ih, List.append_assoc]

theorem emitIdentifierPart_word {text : Text} (hword : ∀ ch ∈ text, isWordByte ch = true) :
    emitIdentifierPart text = text := by
  induction text with
  | nil => rfl
  | cons ch rest ih =>
      have hch := hword ch (by simp)
      have hrest := ih fun other hmem => hword other (List.mem_cons_of_mem _ hmem)
      unfold isWordByte at hch
      rw [emitIdentifierPart, hrest, if_pos hch, List.singleton_append]

theorem emitIdentifierPart_dot : emitIdentifierPart [dot] = dotSpelling := by
  decide

theorem emitIdentifierPart_dotSpelling : emitIdentifierPart dotSpelling = dotSpelling := by
  decide

theorem emitIdentifierPart_cons_dot (rest : Text) :
    emitIdentifierPart (dot :: rest) = dotSpelling ++ emitIdentifierPart rest := by
  rw [← List.singleton_append, emitIdentifierPart_append, emitIdentifierPart_dot]

theorem SpellsDot.cons {first second : Text} (ch : UInt8) (hspells : SpellsDot first second) :
    SpellsDot (ch :: first) (ch :: second) := by
  obtain ⟨before, after, rfl, rfl⟩ := hspells
  exact ⟨ch :: before, after, rfl, rfl⟩

theorem SameSpelling.cons {first second : Text} (ch : UInt8)
    (hsame : SameSpelling first second) : SameSpelling (ch :: first) (ch :: second) := by
  induction hsame with
  | rel _ _ hspells => exact .rel _ _ (hspells.cons ch)
  | refl _ => exact .refl _
  | symm _ _ _ ih => exact .symm _ _ ih
  | trans _ _ _ _ _ ih₁ ih₂ => exact .trans _ _ _ ih₁ ih₂

theorem SameSpelling.emit_eq {first second : Text} (hsame : SameSpelling first second) :
    emitIdentifierPart first = emitIdentifierPart second := by
  induction hsame with
  | rel _ _ hspells =>
      obtain ⟨before, after, rfl, rfl⟩ := hspells
      rw [List.append_assoc, emitIdentifierPart_append, emitIdentifierPart_append,
        emitIdentifierPart_append, emitIdentifierPart_cons_dot, emitIdentifierPart_dotSpelling]
  | refl _ => rfl
  | symm _ _ _ ih => exact ih.symm
  | trans _ _ _ _ _ ih₁ ih₂ => exact ih₁.trans ih₂

theorem sameSpelling_emit {text : Text} (hbytes : ∀ ch ∈ text, isWordByte ch = true ∨ ch = dot) :
    SameSpelling text (emitIdentifierPart text) := by
  induction text with
  | nil => exact .refl _
  | cons ch rest ih =>
      have hrest := ih fun other hmem => hbytes other (List.mem_cons_of_mem _ hmem)
      rcases hbytes ch (by simp) with hword | rfl
      · unfold isWordByte at hword
        rw [emitIdentifierPart, if_pos hword]
        exact hrest.cons ch
      · rw [emitIdentifierPart_cons_dot]
        exact .trans _ _ _ (hrest.cons dot) (.rel _ _ ⟨[], _, rfl, rfl⟩)

theorem sameSpelling_iff {first second : Text}
    (hfirst : ∀ ch ∈ first, isWordByte ch = true ∨ ch = dot)
    (hsecond : ∀ ch ∈ second, isWordByte ch = true ∨ ch = dot) :
    SameSpelling first second ↔ emitIdentifierPart first = emitIdentifierPart second := by
  constructor
  · exact SameSpelling.emit_eq
  · intro hemit
    have hleft := sameSpelling_emit hfirst
    rw [hemit] at hleft
    exact .trans _ _ _ hleft (.symm _ _ (sameSpelling_emit hsecond))

/-! Names that share one symbol. -/

/-- The second module name goes on with text that the first pair has in front of
the second function name. -/
inductive Absorbs : Text × Text → Text × Text → Prop where
  | word {moduleName other middle name : Text}
      (hmodule : SameSpelling other (moduleName ++ underscore :: underscore :: middle)) :
      Absorbs (moduleName, middle ++ underscore :: underscore :: name) (other, name)
  | one {moduleName other name : Text}
      (hmodule : SameSpelling other (moduleName ++ [underscore])) :
      Absorbs (moduleName, underscore :: name) (other, name)

def NamesOverlap (first second : Text × Text) : Prop :=
  SameSpelling first.1 second.1 ∧ first.2 = second.2 ∨
    Absorbs first second ∨ Absorbs second first

/-- What stands behind the sigil. -/
def joinedParts (moduleName name : Text) : Text :=
  emitIdentifierPart moduleName ++ underscore :: underscore :: emitIdentifierPart name

theorem emitFunctionSymbol_eq (moduleName name : Text) :
    emitFunctionSymbol moduleName name = Name.text "@cn_" ++ joinedParts moduleName name := by
  simp only [emitFunctionSymbol, joinedParts, List.append_assoc]
  rfl

theorem emitNamedType_eq (moduleName name : Text) :
    emitNamedType moduleName name = Name.text "%cn_" ++ joinedParts moduleName name := by
  simp only [emitNamedType, joinedParts, List.append_assoc]
  rfl

theorem isWordByte_underscore : isWordByte underscore = true := by
  decide

theorem Absorbs.joined_eq {first second : Text × Text} (habsorbs : Absorbs first second)
    (hfirst : ∀ ch ∈ first.2, isWordByte ch = true)
    (hsecond : ∀ ch ∈ second.2, isWordByte ch = true) :
    joinedParts first.1 first.2 = joinedParts second.1 second.2 := by
  cases habsorbs with
  | @word moduleName other middle name hmodule =>
      have hmiddle : emitIdentifierPart (underscore :: underscore :: middle) =
          underscore :: underscore :: middle := by
        refine emitIdentifierPart_word fun ch hmem => ?_
        rcases List.mem_cons.mp hmem with rfl | hmem
        · exact isWordByte_underscore
        rcases List.mem_cons.mp hmem with rfl | hmem
        · exact isWordByte_underscore
        · exact hfirst ch (List.mem_append_left _ hmem)
      simp only [joinedParts, hmodule.emit_eq, emitIdentifierPart_append, hmiddle,
        emitIdentifierPart_word hfirst, emitIdentifierPart_word hsecond, List.append_assoc,
        List.cons_append]
  | @one moduleName other name hmodule =>
      have hone : emitIdentifierPart [underscore] = [underscore] := by
        decide
      simp only [joinedParts, hmodule.emit_eq, emitIdentifierPart_append, hone,
        emitIdentifierPart_word hfirst, emitIdentifierPart_word hsecond, List.append_assoc,
        List.cons_append, List.nil_append]

theorem absorbs_of_append {first second : Text × Text} {tail : Text}
    (hfirst : ∀ ch ∈ first.1, isWordByte ch = true ∨ ch = dot)
    (hsecond : ∀ ch ∈ second.1, isWordByte ch = true ∨ ch = dot)
    (hname : ∀ ch ∈ first.2, isWordByte ch = true)
    (htail : emitIdentifierPart second.1 = emitIdentifierPart first.1 ++ tail)
    (hrest : underscore :: underscore :: first.2 =
      tail ++ underscore :: underscore :: second.2) :
    NamesOverlap first second := by
  obtain ⟨moduleName, name⟩ := first
  obtain ⟨other, otherName⟩ := second
  -- the module text of the second pair is that of the first with `tail` behind it
  have hspelling : (∀ ch ∈ tail, isWordByte ch = true) →
      SameSpelling other (moduleName ++ tail) := by
    intro hword
    refine (sameSpelling_iff hsecond ?_).mpr ?_
    · intro ch hmem
      rcases List.mem_append.mp hmem with hleft | hright
      · exact hfirst ch hleft
      · exact Or.inl (hword ch hright)
    · rw [emitIdentifierPart_append, emitIdentifierPart_word hword, htail]
  match tail, hrest with
  | [], hrest =>
      simp only [List.nil_append, List.cons.injEq, true_and] at hrest
      have hsame := hspelling (by simp)
      rw [List.append_nil] at hsame
      exact Or.inl ⟨.symm _ _ hsame, hrest⟩
  | [ch], hrest =>
      simp only [List.cons_append, List.nil_append, List.cons.injEq, true_and] at hrest
      obtain ⟨rfl, rfl⟩ := hrest
      exact Or.inr (Or.inl (.one (hspelling (by simp [isWordByte_underscore]))))
  | ch :: next :: middle, hrest =>
      simp only [List.cons_append, List.cons.injEq] at hrest
      obtain ⟨rfl, rfl, rfl⟩ := hrest
      refine Or.inr (Or.inl (.word (hspelling fun ch hmem => ?_)))
      rcases List.mem_cons.mp hmem with rfl | hmem
      · exact isWordByte_underscore
      rcases List.mem_cons.mp hmem with rfl | hmem
      · exact isWordByte_underscore
      · exact hname ch (List.mem_append_left _ hmem)

theorem NamesOverlap.symm {first second : Text × Text} (hoverlap : NamesOverlap first second) :
    NamesOverlap second first := by
  rcases hoverlap with ⟨hmodule, hname⟩ | hleft | hright
  · exact Or.inl ⟨.symm _ _ hmodule, hname.symm⟩
  · exact Or.inr (Or.inr hleft)
  · exact Or.inr (Or.inl hright)

theorem joinedParts_eq_iff {first second : Text × Text}
    (hfirst : IsModuleName first.1) (hfirstName : IsIdentifier first.2)
    (hsecond : IsModuleName second.1) (hsecondName : IsIdentifier second.2) :
    joinedParts first.1 first.2 = joinedParts second.1 second.2 ↔ NamesOverlap first second := by
  constructor
  · intro heq
    unfold joinedParts at heq
    rw [emitIdentifierPart_word hfirstName.word, emitIdentifierPart_word hsecondName.word] at heq
    rcases List.append_eq_append_iff.mp heq with ⟨tail, htail, hrest⟩ | ⟨tail, htail, hrest⟩
    · exact absorbs_of_append hfirst.bytes hsecond.bytes hfirstName.word htail hrest
    · exact (absorbs_of_append hsecond.bytes hfirst.bytes hsecondName.word htail hrest).symm
  · rintro (⟨hmodule, hname⟩ | hleft | hright)
    · rw [joinedParts, joinedParts, hmodule.emit_eq, hname]
    · exact hleft.joined_eq hfirstName.word hsecondName.word
    · exact (hright.joined_eq hsecondName.word hfirstName.word).symm

/-- Two declared pairs get two symbols exactly when their names do not overlap. -/
theorem symbols_distinct_iff {first second : Text × Text}
    (hfirst : IsModuleName first.1) (hfirstName : IsIdentifier first.2)
    (hsecond : IsModuleName second.1) (hsecondName : IsIdentifier second.2) :
    (emitFunctionSymbol first.1 first.2 ≠ emitFunctionSymbol second.1 second.2 ↔
        ¬ NamesOverlap first second) ∧
      (emitNamedType first.1 first.2 ≠ emitNamedType second.1 second.2 ↔
        ¬ NamesOverlap first second) := by
  have hjoined := joinedParts_eq_iff hfirst hfirstName hsecond hsecondName
  rw [emitFunctionSymbol_eq, emitFunctionSymbol_eq, emitNamedType_eq, emitNamedType_eq]
  simp only [ne_eq, List.append_cancel_left_eq, hjoined, and_self]

theorem symbols_distinct_main :
    emitFunctionSymbol (Name.text "main") (Name.text "f") ≠
        emitFunctionSymbol (Name.text "main") (Name.text "g") ∧
      ¬ NamesOverlap (Name.text "main", Name.text "f") (Name.text "main", Name.text "g") := by
  have hmain : IsIdentifier (Name.text "main") :=
    ⟨by decide, by decide +kernel, by decide +kernel⟩
  have hf : IsIdentifier (Name.text "f") :=
    ⟨by decide, by decide +kernel, by decide +kernel⟩
  have hg : IsIdentifier (Name.text "g") :=
    ⟨by decide, by decide +kernel, by decide +kernel⟩
  have hiff := (@symbols_distinct_iff (Name.text "main", Name.text "f")
    (Name.text "main", Name.text "g") (.single hmain) hf (.single hmain) hg).1
  have hne : emitFunctionSymbol (Name.text "main") (Name.text "f") ≠
      emitFunctionSymbol (Name.text "main") (Name.text "g") := by
    decide
  exact ⟨hne, hiff.mp hne⟩

def functionSymbols (project : Project) : List Text :=
  project.modules.flatMap fun module => module.program.functions.map fun function =>
    emitFunctionSymbol module.name.text function.name.text

/-- Modules `a` with `b__c` and `a__b` with `c`. -/
def overlappingProject : Project :=
  ⟨[
    ⟨false, "main", ⟨[⟨"a", "a"⟩, ⟨"a__b", "a__b"⟩], [], [],
      [mainFunction [.returnStmt (some (.call (.field (.name "a") "b__c") []))]]⟩,
      [some 1, some 2]⟩,
    ⟨false, "a", ⟨[], [], [],
      [⟨true, false, "b__c", .int, [], some [.returnStmt (some (.int 1))]⟩]⟩, []⟩,
    ⟨false, "a__b", ⟨[], [], [],
      [⟨true, false, "c", .int, [], some [.returnStmt (some (.int 2))]⟩]⟩, []⟩]⟩

theorem overlapping_functions_share_symbol :
    Check.Accepted overlappingProject ∧ ¬ (functionSymbols overlappingProject).Nodup ∧
      ¬ ∀ first second : Text × Text,
        IsModuleName first.1 → IsIdentifier first.2 →
        IsModuleName second.1 → IsIdentifier second.2 → first ≠ second →
          emitFunctionSymbol first.1 first.2 ≠ emitFunctionSymbol second.1 second.2 ∧
            emitNamedType first.1 first.2 ≠ emitNamedType second.1 second.2 := by
  refine ⟨by decide, by decide, fun hdistinct => ?_⟩
  have hleft : IsIdentifier (Name.text "a") :=
    ⟨by decide, by decide +kernel, by decide +kernel⟩
  have hleftName : IsIdentifier (Name.text "b__c") :=
    ⟨by decide, by decide +kernel, by decide +kernel⟩
  have hright : IsIdentifier (Name.text "a__b") :=
    ⟨by decide, by decide +kernel, by decide +kernel⟩
  have hrightName : IsIdentifier (Name.text "c") :=
    ⟨by decide, by decide +kernel, by decide +kernel⟩
  have hsymbols := hdistinct (Name.text "a", Name.text "b__c")
    (Name.text "a__b", Name.text "c") (.single hleft) hleftName (.single hright) hrightName
    (by decide)
  exact hsymbols.1 (by decide)

end Backend

end Cnegative
