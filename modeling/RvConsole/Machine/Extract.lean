import RvConsole.Isa.Register

/-! The fields of a word as the machine takes them apart. -/
namespace RvConsole.Extract

def opcode (w : Word) : Word := w &&& 0x7F
def rd (w : Word) : BitVec 5 := w.extractLsb' 7 5
def rs1 (w : Word) : BitVec 5 := w.extractLsb' 15 5
def rs2 (w : Word) : BitVec 5 := w.extractLsb' 20 5
def funct3 (w : Word) : BitVec 3 := w.extractLsb' 12 3
def funct7 (w : Word) : BitVec 7 := w.extractLsb' 25 7
def shamt (w : Word) : BitVec 5 := w.extractLsb' 20 5
/-- The CSR number of a word. -/
def csr (w : Word) : Word := w >>> 20

/-! Immediates are signed words. -/

def immI (w : Word) : Word := w.sshiftRight 20

def immS (w : Word) : Word := (w.sshiftRight 25 <<< 5) ||| ((w >>> 7) &&& 0x1F)

def immB (w : Word) : Word :=
  (w.sshiftRight 31 <<< 12) ||| (((w >>> 7) &&& 0x1) <<< 11) ||| (((w >>> 25) &&& 0x3F) <<< 5) |||
    (((w >>> 8) &&& 0xF) <<< 1)

def immU (w : Word) : Word := w &&& 0xFFFFF000

def immJ (w : Word) : Word :=
  (w.sshiftRight 31 <<< 20) ||| (((w >>> 12) &&& 0xFF) <<< 12) ||| (((w >>> 20) &&& 0x1) <<< 11) |||
    (((w >>> 21) &&& 0x3FF) <<< 1)

end RvConsole.Extract
