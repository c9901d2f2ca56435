import RemoteRegisters.Proofs.Register.Lanes
import RemoteRegisters.Proofs.Register.Transmission

/-!
# What a register file remembers

Everything that reads return and writes transmit can be told from the map and the
accesses so far. A register sees the accesses to exactly its own offset and no
others (`RegisterFile.register?_after`). Of those, a storage register remembers
for each byte the last write that was wide enough to cover it; the other kinds
remember nothing.

## Main definitions

- `RegisterFile.Access`, `RegisterFile.after` — an access to a register file, and the file after
  several
- `RegisterFile.seenAt` — what the register at an address sees of a run
- `RegisterFile.lastWritten?` — the value of the last write that covered a byte of a register
- `RegisterFile.emissionsOf`, `RegisterMap.emission` — the bytes that a run transmits, as the registers
  emit them and as the map tells
-/

namespace RemoteRegisters

namespace RegisterFile

/-- One access to a register file, at any address and with all bits of a written value. -/
structure Access extends Register.Access where
  addr : UInt32
  deriving DecidableEq, Repr

/-- The value that an access writes to a byte of the register at an address, if it covers the byte. -/
def Access.written? (x : Access) (addr : UInt32) (i : Nat) : Option UInt64 :=
  match x.operation with
  | .read => none
  | .write value => if x.addr = addr ∧ i < x.width.bytes then some value else none

/-- The value of the last write to exactly an address that covered a byte there. -/
def lastWritten? (xs : List Access) (addr : UInt32) (i : Nat) : Option UInt64 :=
  (xs.filterMap (·.written? addr i)).getLast?

def step (f : RegisterFile) (x : Access) : RegisterFile :=
  match x.operation with
  | .read => f
  | .write value => f.write x.addr x.width value

/-- A register file after accesses one behind the other. -/
def after (f : RegisterFile) (xs : List Access) : RegisterFile :=
  xs.foldl step f

/-- The bytes that accesses transmit, one behind the other. -/
def emissionsOf (f : RegisterFile) : List Access → List UInt8
  | [] => []
  | x :: xs =>
      let emitted :=
        match x.operation with
        | .read => []
        | .write value => f.emitted x.addr x.width value
      emitted ++ (f.step x).emissionsOf xs

/-- The accesses that the register at an address sees. -/
def seenAt (xs : List Access) (addr : UInt32) : List Register.Access :=
  (xs.filter fun x => x.addr = addr).map Access.toAccess

end RegisterFile

/-- The low bytes of the values that accesses write to transmitting registers. -/
def RegisterMap.emission (m : RegisterMap) (xs : List RegisterFile.Access) : List UInt8 :=
  xs.flatMap fun x =>
    match x.operation with
    | .read => []
    | .write value => if m.Transmits x.addr then [value.toUInt8] else []

namespace RegisterFile

/-! ### One address -/

theorem register?_step (f : RegisterFile) (x : Access) (addr : UInt32) :
    (f.step x).register? addr =
      (f.register? addr).map fun r => if x.addr = addr then r.step x.toAccess else r := by
  unfold step Register.step
  cases x.operation with
  | read => simp
  | write value =>
    dsimp only
    rw [register?_write]
    by_cases haddr : addr = x.addr
    · simp [haddr]
    · simp [haddr, Ne.symm haddr]

/-- The register at an address has seen the accesses to that address, and no others. -/
theorem register?_after (f : RegisterFile) (xs : List Access) (addr : UInt32) :
    (f.after xs).register? addr = (f.register? addr).map (·.after (seenAt xs addr)) := by
  induction xs generalizing f with
  | nil => simp [after, seenAt, Register.after]
  | cons x xs ih =>
    rw [after, List.foldl_cons, ← after, ih, register?_step, Option.map_map]
    congr 1
    funext r
    by_cases haddr : x.addr = addr
    · simp [seenAt, haddr, Register.after]
    · simp [seenAt, haddr]

/-- The bits of a byte were last written together. -/
theorem lastWritten?_seenAt (xs : List Access) (addr : UInt32) {i j : Nat} (hj : j < 8) :
    Register.lastWritten? (seenAt xs addr) (8 * i + j) = lastWritten? xs addr i := by
  have hwritten (x : Access) :
      (if x.addr = addr then x.toAccess.written? (8 * i + j) else none) = x.written? addr i := by
    simp only [Register.Access.written?, Access.written?, x.width.lt_bits_iff hj]
    cases x.operation with
    | read => simp
    | write value => by_cases haddr : x.addr = addr <;> simp [haddr]
  simp only [Register.lastWritten?, lastWritten?, seenAt, List.filterMap_map, List.filterMap_filter]
  simp [hwritten]

/-- Accesses to other addresses make no difference to what a read returns. -/
theorem read_after_filter (f : RegisterFile) (xs : List Access) (addr : UInt32) (w : Width) :
    (f.after (xs.filter (·.addr = addr))).read addr w = (f.after xs).read addr w := by
  simp only [read, register?_after, seenAt, List.filter_filter, Bool.and_self]

/-! ### The kinds of registers -/

section

variable {m : RegisterMap} {addr : UInt32} {d : RegisterDescriptor}

/-- A read finds what the accesses to its own address have left of the reset state. -/
theorem read_after (h : m.lookup? addr = some d) (xs : List Access) (w : Width) :
    ((ofMap m).after xs).read addr w =
      ((d.semantics.register d.reset).after (seenAt xs addr)).read w := by
  rw [read, register?_after, register?_ofMap, h]
  rfl

/-- A storage register reads as the bytes last written to it. -/
theorem read_after_storage (h : m.lookup? addr = some d) (hsem : d.semantics = .storage)
    (xs : List Access) (w : Width) :
    (((ofMap m).after xs).read addr w).toNat < 2 ^ w.bits ∧
      ∀ i < w.bytes, LittleEndian.byte (((ofMap m).after xs).read addr w).toNat i =
        LittleEndian.byte ((lastWritten? xs addr i).getD d.reset).toNat i := by
  obtain ⟨value, hafter, hvalue⟩ :=
    Register.after_storage d.reset 0xFFFF_FFFF_FFFF_FFFF (seenAt xs addr)
  have hread : ((ofMap m).after xs).read addr w = value &&& w.mask := by
    rw [read_after h, hsem]
    simp only [Semantics.register, hafter, Register.read]
  rw [hread]
  constructor
  · rw [w.toNat_and_mask, ← w.range_eq_two_pow]
    exact Nat.mod_lt _ w.range_pos
  · intro i hi
    apply LittleEndian.byte_eq_of_testBit
    intro j hj
    have hcovered : 8 * i + j < w.bits := (w.lt_bits_iff hj).mpr hi
    have hwritable : (0xFFFF_FFFF_FFFF_FFFF : UInt64).toNat.testBit (8 * i + j) = true := by
      have hword := w.bytes_le_four
      rw [show (0xFFFF_FFFF_FFFF_FFFF : UInt64).toNat = 2 ^ 64 - 1 from rfl,
        Nat.testBit_two_pow_sub_one]
      exact decide_eq_true (by omega)
    rw [UInt64.toNat_and, Nat.testBit_and, w.testBit_mask, decide_eq_true hcovered, Bool.and_true,
      hvalue, if_pos hwritable, lastWritten?_seenAt xs addr hj]

theorem read_after_constant (h : m.lookup? addr = some d) (hsem : d.semantics = .constant)
    (xs : List Access) (w : Width) :
    (((ofMap m).after xs).read addr w).toNat = d.reset.toNat % 2 ^ w.bits := by
  rw [read_after h, hsem]
  simp only [Semantics.register, Register.after_constant, Register.read]
  rw [w.toNat_and_mask, w.range_eq_two_pow]

/-- There is nothing to read where there is no register, or one that only transmits. -/
theorem read_after_eq_zero (h : m.lookup? addr = none ∨ m.Transmits addr) (xs : List Access)
    (w : Width) : ((ofMap m).after xs).read addr w = 0 := by
  cases h with
  | inl hnone =>
    rw [read, register?_after, register?_ofMap, hnone]
    rfl
  | inr htransmits =>
    obtain ⟨d, hd, hsem⟩ := htransmits
    rw [read_after hd, hsem]
    simp only [Semantics.register, Register.after_sink, Register.read]

end

/-! ### What is transmitted -/

theorem SinksOf.step {f : RegisterFile} {m : RegisterMap} (h : f.SinksOf m) (x : Access) :
    (f.step x).SinksOf m := by
  unfold RegisterFile.step
  cases x.operation with
  | read => exact h
  | write value => exact h.write x.addr x.width value

theorem SinksOf.emissionsOf {f : RegisterFile} {m : RegisterMap} (h : f.SinksOf m)
    (xs : List Access) : f.emissionsOf xs = m.emission xs := by
  induction xs generalizing f with
  | nil => rfl
  | cons x xs ih =>
    rw [RegisterFile.emissionsOf, ih (h.step x), RegisterMap.emission, RegisterMap.emission,
      List.flatMap_cons]
    congr 1
    cases x.operation with
    | read => rfl
    | write value => exact h.emitted x.addr x.width value

/-- What registers return and transmit after any accesses, told from the map and the accesses. A
storage register returns for each byte the last value that was written to exactly its address and
was wide enough to cover the byte, or the reset value. A constant register returns its reset value.
Elsewhere there is nothing to read. The low byte of every write to a transmitting register is
transmitted, in order. And what a read returns is the same as if only its own address had ever been
accessed. -/
theorem history (m : RegisterMap) (xs : List Access) (addr : UInt32) (w : Width) :
    (∀ d, m.lookup? addr = some d → d.semantics = .storage →
      (((ofMap m).after xs).read addr w).toNat < 2 ^ w.bits ∧
        ∀ i < w.bytes, LittleEndian.byte (((ofMap m).after xs).read addr w).toNat i =
          LittleEndian.byte ((lastWritten? xs addr i).getD d.reset).toNat i) ∧
    (∀ d, m.lookup? addr = some d → d.semantics = .constant →
      (((ofMap m).after xs).read addr w).toNat = d.reset.toNat % 2 ^ w.bits) ∧
    (m.lookup? addr = none ∨ m.Transmits addr → ((ofMap m).after xs).read addr w = 0) ∧
    (ofMap m).emissionsOf xs = m.emission xs ∧
    ((ofMap m).after (xs.filter (·.addr = addr))).read addr w = ((ofMap m).after xs).read addr w :=
  ⟨fun _ h hsem => read_after_storage h hsem xs w,
    fun _ h hsem => read_after_constant h hsem xs w,
    fun h => read_after_eq_zero h xs w,
    (sinksOf_ofMap m).emissionsOf xs,
    read_after_filter (ofMap m) xs addr w⟩

/-- Of a word in the control register, a later write of a byte leaves the upper bytes, and a write to
the address behind it all of them. -/
theorem history_control :
    (∀ i < 4, LittleEndian.byte (((ofMap .standard).after [⟨⟨.word, .write 0xAABBCCDD⟩, 8⟩,
        ⟨⟨.byte, .write 0x55⟩, 8⟩, ⟨⟨.word, .write 0⟩, 9⟩, ⟨⟨.half, .write 0x4142⟩, 0⟩]).read 8
          .word).toNat i = LittleEndian.byte 0xAABBCC55 i) ∧
      (((ofMap .standard).after [⟨⟨.word, .write 0⟩, 4⟩]).read 4 .half).toNat = 1 ∧
      ((ofMap .standard).after [⟨⟨.word, .write 7⟩, 9⟩]).read 9 .byte = 0 ∧
      ((ofMap .standard).after [⟨⟨.word, .write 7⟩, 0⟩]).read 0 .byte = 0 := by
  have hcontrol : RegisterMap.standard.lookup? 8 =
      some (.ofSemantics RegisterMap.control "CTRL" .storage ControlFlags.reset.raw.toUInt64) := rfl
  have hstatus : RegisterMap.standard.lookup? 4 =
      some (.ofSemantics RegisterMap.status "STATUS" .constant StatusFlags.ready.raw.toUInt64) := rfl
  refine ⟨fun i hi => ?_, ?_, (history _ _ _ _).2.2.1 (by decide),
    (history _ _ _ _).2.2.1 (by decide)⟩
  · rw [((history .standard _ 8 .word).1 _ hcontrol rfl).2 i hi]
    revert i
    decide
  · rw [(history .standard _ 4 .half).2.1 _ hstatus rfl]
    rfl

end RegisterFile

end RemoteRegisters
