import RvConsole.Proofs.Isa.Encoding
import RvConsole.Proofs.Isa.Grammar
import RvConsole.Proofs.Isa.Printing

/-! What every line is read as.

A mnemonic asks for a row of arguments (`Mnemonic.slots`), accepts some numbers of them (`Mnemonic.counts`) and gives
each a role in its instruction (`Mnemonic.instruction?`). That is all there is to its reader: the arguments are read
one by one from the left, each as if it stood alone, and the values take their roles (`Mnemonic.read_of_count`). So
the first argument that is not in the language of its slot is the one that is reported. -/
namespace RvConsole
open Text (byte)

/-! ### Slots -/

/-- What an argument has to be. -/
inductive Slot where
  | register
  | immediate (kind : ImmKind)
  | memory (kind : ImmKind)
  | order

/-- What an argument is read as. -/
inductive Datum where
  | register (r : Register)
  | number (v : Int)
  | memory (operand : MemoryOperand)
  | order (bits : Word)

namespace Slot
variable {slot : Slot} {token : Text} {datum : Datum}

/-- Reads an argument that stands alone. -/
def read : Slot → Text → Except OperandError Datum
  | register, token => (Register.parse token).map .register
  | immediate kind, token => (kind.parse token).map .number
  | memory kind, token => (MemoryOperand.parse kind token).map .memory
  | order, token => (Order.parse token).map .order

/-- The arguments that a slot takes, with their values. -/
inductive Reads : Slot → Text → Datum → Prop where
  | register {token : Text} {r : Register} :
    Register.Named token r.index.toNat → Reads .register token (.register r)
  | immediate {kind : ImmKind} {token : Text} {v : Int} :
    kind.Means token v → kind.Admits v → Reads (.immediate kind) token (.number v)
  | memory {kind : ImmKind} {token : Text} {operand : MemoryOperand} :
    MemoryOperand.Written kind token operand → Reads (.memory kind) token (.memory operand)
  | order {token : Text} {bits : Word} : Order.Lists token bits → Reads .order token (.order bits)

/-- Whether an argument is in the language of a slot. -/
def Accepts (slot : Slot) (token : Text) : Prop := ∃ datum, slot.Reads token datum

/-- **A slot reads its language.** -/
theorem read_eq_ok_iff : slot.read token = .ok datum ↔ slot.Reads token datum := by
  cases slot with
  | register =>
    simp only [read, map_eq_ok, Register.parse_eq_ok_iff]
    constructor
    · rintro ⟨r, h, rfl⟩
      exact .register h
    · intro h
      cases h with
      | register h => exact ⟨_, h, rfl⟩
  | immediate kind =>
    simp only [read, map_eq_ok, ImmKind.parse_eq_ok_iff]
    constructor
    · rintro ⟨v, ⟨hmeans, hadmits⟩, rfl⟩
      exact .immediate hmeans hadmits
    · intro h
      cases h with
      | immediate hmeans hadmits => exact ⟨_, ⟨hmeans, hadmits⟩, rfl⟩
  | memory kind =>
    simp only [read, map_eq_ok, MemoryOperand.parse_eq_ok_iff]
    constructor
    · rintro ⟨operand, h, rfl⟩
      exact .memory h
    · intro h
      cases h with
      | memory h => exact ⟨_, h, rfl⟩
  | order =>
    simp only [read, map_eq_ok, Order.parse_eq_ok_iff]
    constructor
    · rintro ⟨bits, h, rfl⟩
      exact .order h
    · intro h
      cases h with
      | order h => exact ⟨_, h, rfl⟩

theorem read_of_not_accepts (h : ¬ slot.Accepts token) : ∃ cause, slot.read token = .error cause := by
  cases hread : slot.read token with
  | error cause => exact ⟨cause, rfl⟩
  | ok datum => exact absurd ⟨datum, read_eq_ok_iff.mp hread⟩ h

instance (slot : Slot) (token : Text) : Decidable (slot.Accepts token) :=
  match h : slot.read token with
  | .ok datum => isTrue ⟨datum, read_eq_ok_iff.mp h⟩
  | .error _ => isFalse fun ⟨_, hreads⟩ => by
    rw [read_eq_ok_iff.mpr hreads] at h
    cases h

/-! ### Rows of slots -/

/-- Reads arguments from the left, the first of which has number `index`. -/
def readAll : Nat → List (Slot × Text) → Except ParseError (List Datum)
  | _, [] => .ok []
  | index, (slot, token) :: rest => do
    let datum ← argument index (slot.read token)
    let data ← readAll (index + 1) rest
    return datum :: data

variable {pairs : List (Slot × Text)}

/-- What the arguments are read as. -/
def ReadAs (pairs : List (Slot × Text)) (data : List Datum) : Prop :=
  List.Forall₂ (fun p datum => Reads p.1 p.2 datum) pairs data

theorem readAs_of_accepts (h : ∀ p ∈ pairs, p.1.Accepts p.2) : ∃ data, ReadAs pairs data := by
  induction pairs with
  | nil => exact ⟨[], .nil⟩
  | cons p rest ih =>
    obtain ⟨⟨datum, hdatum⟩, hrest⟩ := List.forall_mem_cons.mp h
    obtain ⟨data, hdata⟩ := ih hrest
    exact ⟨datum :: data, .cons hdatum hdata⟩

theorem readAll_eq_ok_iff {index : Nat} {data : List Datum} :
    readAll index pairs = .ok data ↔ ReadAs pairs data := by
  induction pairs generalizing index data with
  | nil =>
    constructor
    · rintro ⟨⟩
      exact .nil
    · rintro ⟨⟩
      rfl
  | cons p rest ih =>
    constructor
    · intro h
      obtain ⟨datum, hdatum, h⟩ := bind_eq_ok.mp h
      obtain ⟨data, hdata, h⟩ := bind_eq_ok.mp h
      obtain rfl := Except.ok.inj h
      exact .cons (read_eq_ok_iff.mp (argument_eq_ok.mp hdatum)) (ih.mp hdata)
    · rintro (_ | ⟨hdatum, hdata⟩)
      simp only [readAll, read_eq_ok_iff.mpr hdatum, ih.mpr hdata]
      rfl

/-- Argument `i` is the first that its slot does not take. -/
def FirstFault (pairs : List (Slot × Text)) (i : Nat) (slot : Slot) (token : Text) : Prop :=
  pairs[i]? = some (slot, token) ∧ ¬ slot.Accepts token ∧ ∀ p ∈ pairs.take i, p.1.Accepts p.2

/-- The first argument that its slot does not take is reported, as its slot reports it. -/
theorem readAll_of_not_accepts (index : Nat) (h : ¬ ∀ p ∈ pairs, p.1.Accepts p.2) :
    ∃ i slot token cause, FirstFault pairs i slot token ∧ slot.read token = .error cause ∧
      readAll index pairs = .error (.argument (index + i) cause) := by
  induction pairs generalizing index with
  | nil => exact absurd (List.forall_mem_nil _) h
  | cons p rest ih =>
    by_cases hp : p.1.Accepts p.2
    · have hrest : ¬ ∀ p ∈ rest, p.1.Accepts p.2 := fun hrest => h (List.forall_mem_cons.mpr ⟨hp, hrest⟩)
      obtain ⟨i, slot, token, cause, ⟨hi, hfault, hbefore⟩, hcause, hread⟩ := ih (index + 1) hrest
      obtain ⟨datum, hdatum⟩ := hp
      refine ⟨i + 1, slot, token, cause,
        ⟨hi, hfault, List.forall_mem_cons.mpr ⟨⟨datum, hdatum⟩, hbefore⟩⟩, hcause, ?_⟩
      rw [Nat.add_right_comm] at hread
      simp only [readAll, read_eq_ok_iff.mpr hdatum, hread]
      rfl
    · obtain ⟨cause, hcause⟩ := read_of_not_accepts hp
      refine ⟨0, p.1, p.2, cause, ⟨rfl, hp, List.forall_mem_nil _⟩, hcause, ?_⟩
      simp only [readAll, hcause]
      rfl

end Slot

/-! ### The arguments of mnemonics -/

/-- The arguments of a shape, in the order in which they are written. -/
def Shape.slots : Shape → List Slot
  | u => [.register, .immediate .u]
  | j => [.register, .immediate .j]
  | i => [.register, .register, .immediate .i]
  | load => [.register, .memory .i]
  | s => [.register, .memory .s]
  | b => [.register, .register, .immediate .b]
  | r => [.register, .register, .register]
  | shift => [.register, .register, .immediate .shift]
  | fence => [.order, .order]
  | csr => [.register, .immediate .csr, .register]
  | csri => [.register, .immediate .csr, .immediate .uimm]
  | system => []

/-- The numbers of arguments that a shape accepts. -/
def Shape.counts : Shape → List Nat
  | fence => [0, 2]
  | shape => [shape.slots.length]

/-- The operands of a shape, each value in its role. Without arguments they have the operation's `own` immediate. -/
def Shape.operands? (own : Int) : Shape → List Datum → Option Operands
  | .u, [.register rd, .number imm] => some (.u rd imm)
  | .j, [.register rd, .number imm] => some (.j rd imm)
  | .i, [.register rd, .register rs1, .number imm] => some (.i rd rs1 imm)
  | .load, [.register rd, .memory ⟨rs1, imm⟩] => some (.load rd rs1 imm)
  | .s, [.register rs2, .memory ⟨rs1, imm⟩] => some (.s rs1 rs2 imm)
  | .b, [.register rs1, .register rs2, .number imm] => some (.b rs1 rs2 imm)
  | .r, [.register rd, .register rs1, .register rs2] => some (.r rd rs1 rs2)
  | .shift, [.register rd, .register rs1, .number shamt] => some (.shift rd rs1 shamt)
  | .fence, [] => some (.fence Order.all Order.all 0)
  | .fence, [.order pred, .order succ] => some (.fence pred succ 0)
  | .csr, [.register rd, .number number, .register rs1] => some (.csr rd number rs1)
  | .csri, [.register rd, .number number, .number uimm] => some (.csri rd number uimm)
  | .system, [] => some (.system own)
  | _, _ => none

theorem Op.readOperands_of_count (op : Op) {args : List Text} (h : args.length ∈ op.info.shape.counts) :
    (op.readOperands args).map some =
      (Slot.readAll 0 (op.info.shape.slots.zip args)).map (op.info.shape.operands? op.info.imm) := by
  unfold readOperands
  generalize op.info.shape = shape at h ⊢
  have htwo (h : args.length ∈ [2]) := List.length_eq_two.mp (List.mem_singleton.mp h)
  have hthree (h : args.length ∈ [3]) := List.length_eq_three.mp (List.mem_singleton.mp h)
  cases shape with
  | u | j =>
    obtain ⟨rd, imm, rfl⟩ := htwo h
    simp only [Shape.slots, List.zip_cons_cons, List.zip_nil_right, Slot.readAll, Slot.read]
    cases Register.parse rd <;> cases ImmKind.parse _ imm <;> rfl
  | load | s =>
    obtain ⟨r, memory, rfl⟩ := htwo h
    simp only [Shape.slots, List.zip_cons_cons, List.zip_nil_right, Slot.readAll, Slot.read]
    cases Register.parse r <;> cases MemoryOperand.parse _ memory <;> rfl
  | i | b | shift =>
    obtain ⟨r, r', imm, rfl⟩ := hthree h
    simp only [Shape.slots, List.zip_cons_cons, List.zip_nil_right, Slot.readAll, Slot.read]
    cases Register.parse r <;> cases Register.parse r' <;> cases ImmKind.parse _ imm <;> rfl
  | r =>
    obtain ⟨rd, rs1, rs2, rfl⟩ := hthree h
    simp only [Shape.slots, List.zip_cons_cons, List.zip_nil_right, Slot.readAll, Slot.read]
    cases Register.parse rd <;> cases Register.parse rs1 <;> cases Register.parse rs2 <;> rfl
  | csr =>
    obtain ⟨rd, csr, rs1, rfl⟩ := hthree h
    simp only [Shape.slots, List.zip_cons_cons, List.zip_nil_right, Slot.readAll, Slot.read]
    cases Register.parse rd <;> cases ImmKind.csr.parse csr <;> cases Register.parse rs1 <;> rfl
  | csri =>
    obtain ⟨rd, csr, uimm, rfl⟩ := hthree h
    simp only [Shape.slots, List.zip_cons_cons, List.zip_nil_right, Slot.readAll, Slot.read]
    cases Register.parse rd <;> cases ImmKind.csr.parse csr <;> cases ImmKind.uimm.parse uimm <;> rfl
  | fence =>
    rcases List.mem_cons.mp h with hnone | h
    · obtain rfl := List.length_eq_zero_iff.mp hnone
      rfl
    · obtain ⟨pred, succ, rfl⟩ := htwo h
      simp only [Shape.slots, List.zip_cons_cons, List.zip_nil_right, Slot.readAll, Slot.read]
      cases Order.parse pred <;> cases Order.parse succ <;> rfl
  | system =>
    obtain rfl := List.length_eq_zero_iff.mp (List.mem_singleton.mp h)
    rfl

theorem Op.readOperands_of_not_count (op : Op) {args : List Text} (h : args.length ∉ op.info.shape.counts) :
    op.readOperands args = .error (.argumentCount args.length op.info.shape.counts) := by
  unfold readOperands
  generalize op.info.shape = shape at h ⊢
  split <;> first | rfl | exact absurd (by simp [Shape.counts, Shape.slots]) h

namespace Mnemonic

/-- How a mnemonic is written. -/
def name : Mnemonic → Text
  | op operation => operation.name
  | li => "li"
  | nop => "nop"

/-- The arguments of a mnemonic. -/
def slots : Mnemonic → List Slot
  | op operation => operation.info.shape.slots
  | li => [.register, .immediate .i]
  | nop => []

/-- The numbers of arguments that a mnemonic accepts. -/
def counts : Mnemonic → List Nat
  | op operation => operation.info.shape.counts
  | li => [2]
  | nop => [0]

/-- The instruction of a mnemonic, each value in its role. -/
def instruction? : Mnemonic → List Datum → Option Instruction
  | op operation, data => (operation.info.shape.operands? operation.info.imm data).map (.mk operation)
  | li, [.register rd, .number imm] => some ⟨.addi, .i rd .zero imm⟩
  | nop, [] => some ⟨.addi, .i .zero .zero 0⟩
  | _, _ => none

variable {m : Mnemonic} {args : List Text}

/-- **A mnemonic reads its arguments from the left and gives each value its role.** -/
theorem read_of_count (h : args.length ∈ m.counts) :
    (m.read args).map some = (Slot.readAll 0 (m.slots.zip args)).map m.instruction? := by
  cases m with
  | op operation =>
    calc (read (.op operation) args).map some
        = ((operation.readOperands args).map some).map (Option.map (.mk operation)) := by
          simp only [read]
          cases operation.readOperands args <;> rfl
      _ = ((Slot.readAll 0 (slots (.op operation) |>.zip args)).map
            (operation.info.shape.operands? operation.info.imm)).map (Option.map (.mk operation)) := by
          rw [operation.readOperands_of_count h, slots]
      _ = (Slot.readAll 0 (slots (.op operation) |>.zip args)).map (instruction? (.op operation)) := by
          cases Slot.readAll 0 (slots (.op operation) |>.zip args) <;> rfl
  | li =>
    obtain ⟨rd, imm, rfl⟩ := List.length_eq_two.mp (List.mem_singleton.mp h)
    simp only [read, slots, List.zip_cons_cons, List.zip_nil_right, Slot.readAll, Slot.read]
    cases Register.parse rd <;> cases ImmKind.i.parse imm <;> rfl
  | nop =>
    obtain rfl := List.length_eq_zero_iff.mp (List.mem_singleton.mp h)
    rfl

theorem read_of_not_count (h : args.length ∉ m.counts) :
    m.read args = .error (.argumentCount args.length m.counts) := by
  cases m with
  | op operation =>
    simp only [read, operation.readOperands_of_not_count h]
    rfl
  | li =>
    rcases args with _ | ⟨rd, _ | ⟨imm, _ | ⟨more, rest⟩⟩⟩
    · rfl
    · rfl
    · exact absurd (List.mem_singleton.mpr rfl) h
    · rfl
  | nop =>
    cases args with
    | nil => exact absurd (List.mem_singleton.mpr rfl) h
    | cons => rfl

theorem read_eq_ok_iff {inst : Instruction} : m.read args = .ok inst ↔
    args.length ∈ m.counts ∧ ∃ data, Slot.ReadAs (m.slots.zip args) data ∧ m.instruction? data = some inst := by
  by_cases hcount : args.length ∈ m.counts
  · have hread := read_of_count hcount
    constructor
    · intro h
      rw [h] at hread
      obtain ⟨data, hdata, hinst⟩ := map_eq_ok.mp hread.symm
      exact ⟨hcount, data, Slot.readAll_eq_ok_iff.mp hdata, hinst⟩
    · rintro ⟨-, data, hdata, hinst⟩
      rw [Slot.readAll_eq_ok_iff.mpr hdata] at hread
      obtain ⟨inst', hinst', hsome⟩ := map_eq_ok.mp hread
      rw [hinst', Option.some.inj (hsome.trans hinst)]
  · rw [read_of_not_count hcount]
    exact iff_of_false (by rintro ⟨⟩) fun h => hcount h.1

/-- Arguments that are taken are the operands of an instruction. -/
theorem read_of_accepts (hcount : args.length ∈ m.counts) (h : ∀ p ∈ m.slots.zip args, p.1.Accepts p.2) :
    ∃ data inst, Slot.ReadAs (m.slots.zip args) data ∧ m.instruction? data = some inst ∧
      m.read args = .ok inst := by
  obtain ⟨data, hdata⟩ := Slot.readAs_of_accepts h
  have hread := read_of_count hcount
  rw [Slot.readAll_eq_ok_iff.mpr hdata] at hread
  obtain ⟨inst, hinst, hsome⟩ := map_eq_ok.mp hread
  exact ⟨data, inst, hdata, hsome.symm, hinst⟩

theorem read_of_not_accepts (hcount : args.length ∈ m.counts) (h : ¬ ∀ p ∈ m.slots.zip args, p.1.Accepts p.2) :
    ∃ i slot token cause, Slot.FirstFault (m.slots.zip args) i slot token ∧ slot.read token = .error cause ∧
      m.read args = .error (.argument i cause) := by
  obtain ⟨i, slot, token, cause, hfirst, hcause, hall⟩ := Slot.readAll_of_not_accepts 0 h
  have hread := read_of_count hcount
  rw [hall, Nat.zero_add] at hread
  exact ⟨i, slot, token, cause, hfirst, hcause, map_eq_error.mp hread⟩

/-! ### Names -/

theorem names_perm : names.Perm (Op.all.map Op.name ++ abbreviations.map Prod.fst) := by
  simp only [names, concat, List.flatten_cons, List.flatten_nil, List.append_nil]
  exact (List.mergeSort_perm _ _).append_right _

theorem nodup_names : names.Nodup := by
  rw [names_perm.nodup_iff]
  decide +kernel

theorem mem_names {word : Text} : word ∈ names ↔ ∃ m : Mnemonic, m.name = word := by
  rw [names_perm.mem_iff, List.mem_append]
  constructor
  · rintro (h | h)
    · obtain ⟨operation, -, rfl⟩ := List.mem_map.mp h
      exact ⟨.op operation, rfl⟩
    · have habbreviations : ∀ p ∈ abbreviations, p.2.name = p.1 := by decide
      obtain ⟨p, hp, rfl⟩ := List.mem_map.mp h
      exact ⟨p.2, habbreviations p hp⟩
  · rintro ⟨m, rfl⟩
    cases m with
    | op operation => exact .inl (List.mem_map_of_mem operation.mem_all)
    | li => exact .inr (by decide)
    | nop => exact .inr (by decide)

theorem ofName?_name (m : Mnemonic) : ofName? m.name = some m := by
  cases m with
  | op operation => exact operation.ofName?_name
  | li => decide
  | nop => decide

theorem ofName?_eq_none {word : Text} (h : word ∉ names) : ofName? word = none := by
  apply List.lookup_eq_none_iff.mpr
  intro p hp
  rw [bne_iff_ne]
  rintro rfl
  have hfst : (operations ++ abbreviations).map Prod.fst = Op.all.map Op.name ++ abbreviations.map Prod.fst := by
    rw [List.map_append, operations, List.map_map]
    rfl
  exact h (names_perm.mem_iff.mpr (hfst ▸ List.mem_map_of_mem hp))

end Mnemonic

/-! ### Lines -/

/-- **Every line is classified.** The name is one of the 49 or is reported; the number of arguments is one that the
mnemonic accepts or is reported; the first argument outside the language of its slot is reported as the slot alone
reports it; and otherwise the values of the arguments are the operands, each in its role, and can be placed. -/
theorem assemble_classifies (line : Text) :
    let name := line.trim.splitBlank.1.lower
    let rest := line.trim.splitBlank.2.trim
    let args := if rest = [] then [] else (rest.split (byte ',')).map Text.trim
    (Mnemonic.names.Nodup ∧ Mnemonic.names.length = 49 ∧
      ∀ word, word ∈ Mnemonic.names ↔ ∃ m : Mnemonic, m.name = word) ∧
    (name ∉ Mnemonic.names → assemble line = .error (.unknownMnemonic name)) ∧
    ∀ m : Mnemonic, m.name = name →
      (args.length ∉ m.counts → assemble line = .error (.argumentCount args.length m.counts)) ∧
      (args.length ∈ m.counts →
        ((¬ ∀ p ∈ m.slots.zip args, p.1.Accepts p.2) →
          ∃ i slot token cause, Slot.FirstFault (m.slots.zip args) i slot token ∧
            slot.read token = .error cause ∧ assemble line = .error (.argument i cause)) ∧
        ((∀ p ∈ m.slots.zip args, p.1.Accepts p.2) →
          ∃ data inst, Slot.ReadAs (m.slots.zip args) data ∧ m.instruction? data = some inst ∧
            assemble line = .ok inst ∧ inst.encode = .ok inst.word)) := by
  intro name rest args
  have hcut : cutLine line = (name, args) := rfl
  have hlength : Mnemonic.names.length = 49 := Mnemonic.names_perm.length_eq
  refine ⟨⟨Mnemonic.nodup_names, hlength, fun _ => Mnemonic.mem_names⟩, fun hname => ?_, fun m hname => ?_⟩
  · simp only [assemble, hcut, Mnemonic.ofName?_eq_none hname]
  have hread : assemble line = m.read args := by
    simp only [assemble, hcut, ← hname, m.ofName?_name]
  rw [hread]
  refine ⟨Mnemonic.read_of_not_count, fun hcount => ⟨Mnemonic.read_of_not_accepts hcount, fun haccepts => ?_⟩⟩
  obtain ⟨data, inst, hdata, hinst, hok⟩ := Mnemonic.read_of_accepts hcount haccepts
  have hformed := wellFormed_of_assemble (hread.trans hok)
  exact ⟨data, inst, hdata, hinst, hok, Instruction.encode_eq_word hformed.2.1⟩

/-- One line of each class: of two faulty arguments the first is reported, and a store names its second register
first. -/
theorem assemble_classifies_lines :
    assemble "frob x1" = .error (.unknownMnemonic "frob") ∧
      assemble "Fence rw" = .error (.argumentCount 1 [0, 2]) ∧
      (∃ i slot token cause,
        Slot.FirstFault [(.register, "a0"), (.immediate .csr, "huh"), (.register, "zz")] i slot token ∧
          slot.read token = .error cause ∧ assemble "csrrw a0, huh, zz" = .error (.argument i cause)) ∧
      ∃ data inst, Slot.ReadAs [(.register, "a0"), (.memory .s, "-4 ( sp )")] data ∧
        Mnemonic.instruction? (.op .sw) data = some inst ∧ assemble " SW\ta0 , -4 ( sp )" = .ok inst ∧
          inst.encode = .ok inst.word := by
  have hname : Text.lower "frob" ∉ Mnemonic.names := by
    rw [Mnemonic.names_perm.mem_iff]
    decide
  refine ⟨(assemble_classifies "frob x1").2.1 hname, ?_, ?_, ?_⟩
  · exact ((assemble_classifies "Fence rw").2.2 (.op .fence) (by decide)).1 (by decide)
  · exact (((assemble_classifies "csrrw a0, huh, zz").2.2 (.op .csrrw) (by decide)).2 (by decide)).1 (by decide)
  · exact (((assemble_classifies " SW\ta0 , -4 ( sp )").2.2 (.op .sw) (by decide)).2 (by decide)).2 (by decide)

end RvConsole
