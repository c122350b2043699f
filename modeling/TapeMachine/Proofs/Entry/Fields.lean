import Mathlib.Algebra.Group.Nat.Defs
import TapeMachine.Proofs.Entry.Codec

/-!
# Which words are entries

Words stand for an entry unless their opcode is unknown, or is that of a state and one of its six
two-bit fields is 3, the one value that stands for nothing. Such a field is called void, and the
first of them in the order of `Field.all` is the one that is reported. What words stand for is
encoded as those words again; only the bits between the fields of a state are lost.
-/

set_option autoImplicit false

namespace TapeMachine

namespace StateRules

/-- A two-bit field in the words of a state: what is written or how the head moves when a symbol was
read. -/
inductive Field where
  | write (read : Symbol)
  | move (read : Symbol)
  deriving DecidableEq

namespace Field

/-- The fields of one symbol, in the order in which they are checked. -/
def ofSymbol (read : Symbol) : List Field := [write read, move read]

/-- Every field, in the order in which they are checked. -/
def all : List Field := Symbol.all.flatMap ofSymbol

/-- The bit of the fields word at which a field begins. -/
def bit : Field → Nat
  | write read => 2 * read.code.toNat
  | move read => 8 + 2 * read.code.toNat

/-- The fault of a void field in the entry at an offset. -/
def fault (offset : Offset) : Field → Fault
  | write read => .notASymbol (offset.toNat + 32 + (2 * read.code.toNat : Nat)) 3
  | move _ => .notAMove 3

/-- Whether a field holds the value that stands for nothing. -/
def isVoid (fields : UInt32) (field : Field) : Bool :=
  fieldAt fields field.bit = 3

/-- The void field that is reported. -/
def firstVoid? (fields : UInt32) : Option Field :=
  all.find? (isVoid fields)

theorem isVoid_iff {fields : UInt32} {field : Field} :
    isVoid fields field = true ↔ fieldAt fields field.bit = 3 :=
  decide_eq_true_iff

end Field

variable {offset : Offset} {fields : UInt32} {read : Symbol} {next : Offset}

theorem toNat_fieldAt (word : UInt32) (bit : Nat) :
    (fieldAt word bit).toNat = word.toNat / 2 ^ bit % 4 := by
  rw [fieldAt, UInt8.toNat_ofNat', Nat.shiftRight_eq_div_pow]
  omega

/-- A field that is not void holds the code of a symbol. -/
theorem exists_symbol_of_fieldAt {bit : Nat} (hfield : fieldAt fields bit ≠ 3) :
    ∃ symbol : Symbol, fieldAt fields bit = symbol.code := by
  have hvalue := toNat_fieldAt fields bit
  have hne : (fieldAt fields bit).toNat ≠ 3 := fun heq ↦ hfield (UInt8.toNat.inj heq)
  have hcases : (fieldAt fields bit).toNat = 0 ∨ (fieldAt fields bit).toNat = 1 ∨
      (fieldAt fields bit).toNat = 2 := by omega
  rcases hcases with hcode | hcode | hcode
  · exact ⟨.zero, UInt8.toNat.inj hcode⟩
  · exact ⟨.one, UInt8.toNat.inj hcode⟩
  · exact ⟨.blank, UInt8.toNat.inj hcode⟩

/-- A field that is not void holds the code of a move. -/
theorem exists_move_of_fieldAt {bit : Nat} (hfield : fieldAt fields bit ≠ 3) :
    ∃ move : HeadMove, fieldAt fields bit = move.code := by
  obtain ⟨symbol, hsymbol⟩ := exists_symbol_of_fieldAt hfield
  rw [hsymbol]
  cases symbol with
  | zero => exact ⟨.left, rfl⟩
  | one => exact ⟨.stay, rfl⟩
  | blank => exact ⟨.right, rfl⟩

/-- The rule for a symbol is refused for the first void field of that symbol. -/
theorem decodeRule_of_void {field : Field}
    (hvoid : (Field.ofSymbol read).find? (Field.isVoid fields) = some field) :
    decodeRule offset fields read next = .error (field.fault offset) := by
  have hsymbol : Symbol.ofCode? 3 = none := rfl
  have hmove : HeadMove.ofCode? 3 = none := rfl
  unfold decodeRule
  by_cases hwrite : fieldAt fields (2 * read.code.toNat) = 3
  · have hfirst : Field.isVoid fields (.write read) = true := Field.isVoid_iff.mpr hwrite
    rw [Field.ofSymbol, List.find?_cons_of_pos hfirst] at hvoid
    cases hvoid
    simp only [hwrite, hsymbol]
    rfl
  · have hfirst : ¬ Field.isVoid fields (.write read) = true := mt Field.isVoid_iff.mp hwrite
    rw [Field.ofSymbol, List.find?_cons_of_neg hfirst, List.find?_singleton] at hvoid
    obtain ⟨symbol, hcode⟩ := exists_symbol_of_fieldAt hwrite
    split at hvoid
    · next hsecond =>
      cases hvoid
      have hthree : fieldAt fields (8 + 2 * read.code.toNat) = 3 := Field.isVoid_iff.mp hsecond
      simp only [hcode, Symbol.ofCode?_code, hthree, hmove]
      rfl
    · cases hvoid

/-- The rule for a symbol is decoded if no field of that symbol is void. -/
theorem exists_decodeRule (offset next : Offset)
    (hvoid : (Field.ofSymbol read).find? (Field.isVoid fields) = none) :
    ∃ rule, decodeRule offset fields read next = .ok rule := by
  rw [List.find?_eq_none] at hvoid
  have hfield : ∀ field ∈ Field.ofSymbol read, fieldAt fields field.bit ≠ 3 :=
    fun field hmem ↦ mt Field.isVoid_iff.mpr (hvoid field hmem)
  have hwrite := hfield (.write read) List.mem_cons_self
  have hmove := hfield (.move read) (List.mem_cons_of_mem _ List.mem_cons_self)
  obtain ⟨symbol, hsymbol⟩ := exists_symbol_of_fieldAt hwrite
  obtain ⟨move, hcode⟩ := exists_move_of_fieldAt hmove
  exact ⟨⟨symbol, move, next⟩, decodeRule_eq_ok_iff.mpr ⟨hsymbol, hcode, rfl⟩⟩

/-- The mask keeps six bits of each of the two low bytes. -/
private theorem and_fieldsMask (number : Nat) :
    number &&& 0x3F3F = 2 ^ 8 * (number / 2 ^ 8 % 2 ^ 6) + number % 2 ^ 6 := by
  have hmask : (0x3F3F : Nat) = 2 ^ 8 * (2 ^ 6 - 1) + (2 ^ 6 - 1) := rfl
  have hlow : number % 2 ^ 6 < 2 ^ 8 := by omega
  apply Nat.eq_of_testBit_eq
  intro bit
  rw [Nat.testBit_and, hmask, Nat.testBit_two_pow_mul_add _ (by decide),
    Nat.testBit_two_pow_mul_add _ hlow]
  by_cases hbit : bit < 8
  · rw [if_pos hbit, if_pos hbit, Nat.testBit_mod_two_pow, Nat.testBit_two_pow_sub_one,
      Bool.and_comm]
  · rw [if_neg hbit, if_neg hbit, Nat.testBit_mod_two_pow, Nat.testBit_two_pow_sub_one,
      Nat.testBit_div_two_pow, Nat.sub_add_cancel (Nat.le_of_not_lt hbit), Bool.and_comm]

/-- The fields of rules are the fields word they are stored in, without the bits between them. -/
theorem StoredIn.fields_eq {rules : StateRules} {words : EntryWords}
    (hstored : rules.StoredIn words) : StateRules.fields rules = words.first &&& 0x3F3F := by
  have hzero := hstored .zero
  have hone := hstored .one
  have hblank := hstored .blank
  have hwrite : ∀ {bit : Nat} {code : UInt8}, fieldAt words.first bit = code →
      words.first.toNat / 2 ^ bit % 4 = code.toNat := by
    rintro bit code rfl
    exact (toNat_fieldAt words.first bit).symm
  have hwriteZero : words.first.toNat / 2 ^ 0 % 4 = rules.zero.write.code.toNat := hwrite hzero.1
  have hwriteOne : words.first.toNat / 2 ^ 2 % 4 = rules.one.write.code.toNat := hwrite hone.1
  have hwriteBlank : words.first.toNat / 2 ^ 4 % 4 = rules.blank.write.code.toNat :=
    hwrite hblank.1
  have hmoveZero : words.first.toNat / 2 ^ 8 % 4 = rules.zero.move.code.toNat := hwrite hzero.2.1
  have hmoveOne : words.first.toNat / 2 ^ 10 % 4 = rules.one.move.code.toNat := hwrite hone.2.1
  have hmoveBlank : words.first.toNat / 2 ^ 12 % 4 = rules.blank.move.code.toNat :=
    hwrite hblank.2.1
  apply UInt32.toNat.inj
  rw [toNat_fields, UInt32.toNat_and, show (0x3F3F : UInt32).toNat = 0x3F3F from rfl,
    and_fieldsMask]
  omega

end StateRules

/-- The known opcodes are the numbers up to nine and the mark of a state. -/
theorem Opcode.ofCode?_eq_none_iff {word : UInt32} :
    Opcode.ofCode? word = none ↔ 9 < word.toNat ∧ word.toNat ≠ 1235 := by
  simp only [ofCode?, List.find?_eq_none, all, List.forall_mem_cons, List.not_mem_nil,
    Opcode.code, decide_eq_true_eq, ← UInt32.toNat_inj, UInt32.reduceToNat]
  simp only [false_implies, implies_true, and_true]
  omega

namespace Entry

variable {words : EntryWords} {offset : Offset}

open StateRules (Field)

/-- The words of a state are refused for their first void field, and decoded if there is none. -/
theorem decode_of_transition (hopcode : words.opcode = Opcode.transition.code) (offset : Offset) :
    match Field.firstVoid? words.first with
    | some field => decode words offset = .error (field.fault offset)
    | none => ∃ rules, decode words offset = .ok (.state rules) := by
  have hall : Field.firstVoid? words.first =
      ((Field.ofSymbol .zero).find? (Field.isVoid words.first)).or
        (((Field.ofSymbol .one).find? (Field.isVoid words.first)).or
          ((Field.ofSymbol .blank).find? (Field.isVoid words.first))) := by
    rw [← List.find?_append, ← List.find?_append]
    rfl
  rw [← Opcode.ofCode?_eq_some_iff] at hopcode
  simp only [decode, hopcode, hall, bind, Except.bind]
  cases hzero : (Field.ofSymbol .zero).find? (Field.isVoid words.first) with
  | some field => rw [StateRules.decodeRule_of_void hzero]; rfl
  | none =>
    obtain ⟨zero, hzeroRule⟩ := StateRules.exists_decodeRule offset words.second hzero
    rw [hzeroRule, Option.none_or]
    cases hone : (Field.ofSymbol .one).find? (Field.isVoid words.first) with
    | some field => rw [StateRules.decodeRule_of_void hone]; rfl
    | none =>
      obtain ⟨one, honeRule⟩ := StateRules.exists_decodeRule offset words.third hone
      rw [honeRule, Option.none_or]
      cases hblank : (Field.ofSymbol .blank).find? (Field.isVoid words.first) with
      | some field => rw [StateRules.decodeRule_of_void hblank]
      | none =>
        obtain ⟨blank, hblankRule⟩ := StateRules.exists_decodeRule offset words.fourth hblank
        rw [hblankRule]
        exact ⟨_, rfl⟩

theorem decode_eq_error_iff {fault : Fault} :
    decode words offset = .error fault ↔
      Opcode.ofCode? words.opcode = none ∧ fault = .unknownOpcode offset words.opcode ∨
      words.opcode = Opcode.transition.code ∧
        ∃ field, Field.firstVoid? words.first = some field ∧ fault = field.fault offset := by
  constructor
  · intro hdecode
    rcases decode_eq_error_cases hdecode with ⟨hnone, rfl⟩ | ⟨hopcode, -⟩
    · exact Or.inl ⟨hnone, rfl⟩
    · have hstate := decode_of_transition hopcode offset
      cases hvoid : Field.firstVoid? words.first with
      | none =>
        rw [hvoid] at hstate
        obtain ⟨rules, hrules⟩ := hstate
        rw [hdecode] at hrules
        cases hrules
      | some field =>
        rw [hvoid] at hstate
        refine Or.inr ⟨hopcode, field, rfl, ?_⟩
        exact Except.error.inj (hdecode.symm.trans hstate)
  · rintro (⟨hnone, rfl⟩ | ⟨hopcode, field, hvoid, rfl⟩)
    · rw [decode, hnone]
    · have hstate := decode_of_transition hopcode offset
      rwa [hvoid] at hstate

/-- What words stand for is encoded as those words, except that the bits between the fields of a
state come out as zeros. -/
theorem encode_of_decode {entry : Entry} (hdecode : decode words offset = .ok entry) :
    entry.encode =
      if entry.isState then { words with first := words.first &&& 0x3F3F } else words := by
  cases entry with
  | instruction instruction => exact (encode_of_decode_instruction hdecode).1.symm
  | state rules =>
    obtain ⟨hopcode, hstored⟩ := decode_eq_ok_state_iff.mp hdecode
    have hzero : words.second = rules.zero.next := (hstored .zero).2.2
    have hone : words.third = rules.one.next := (hstored .one).2.2
    have hblank : words.fourth = rules.blank.next := (hstored .blank).2.2
    rw [encode, hstored.fields_eq, ← hopcode, ← hzero, ← hone, ← hblank]
    rfl

/-- Every entry that can be stored is decoded from its words. In turn words are refused exactly if
their opcode is unknown or a field of a state is void, for the first such field; and all other words
are those that their entry is encoded as, up to the bits between the fields of a state. -/
theorem codec_exact :
    (∀ (entry : Entry) (offset : Offset), (entry.opcode = .transition → entry.isState = true) →
      decode entry.encode offset = .ok entry) ∧
    ∀ (words : EntryWords) (offset : Offset),
      (∀ fault, decode words offset = .error fault ↔
        (9 < words.opcode.toNat ∧ words.opcode.toNat ≠ 1235) ∧
            fault = .unknownOpcode offset words.opcode ∨
          words.opcode = 1235 ∧
            ∃ field, Field.firstVoid? words.first = some field ∧ fault = field.fault offset) ∧
      ∀ entry, decode words offset = .ok entry →
        entry.encode =
          if entry.isState then { words with first := words.first &&& 0x3F3F } else words := by
  refine ⟨fun entry offset ↦ decode_encode offset, fun words offset ↦ ⟨fun fault ↦ ?_, ?_⟩⟩
  · rw [← Opcode.ofCode?_eq_none_iff]
    exact decode_eq_error_iff
  · exact fun entry ↦ encode_of_decode

-- The move for a zero is checked before the symbol for a one; both are void here.
example : decode { opcode := 1235, first := 0x30C, second := 0, third := 0, fourth := 0 } 64 =
    .error (.notAMove 3) := rfl

end Entry

end TapeMachine
