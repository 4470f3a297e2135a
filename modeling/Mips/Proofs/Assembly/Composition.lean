import Mathlib.Data.List.Nodup
import Mips.Proofs.Assembly.Resolution
import Mips.Proofs.Assembly.Verdict
import Mips.Proofs.Source.Concatenation

/-!
# Programs one behind the other

Nearly nothing of what a statement denotes depends on where the program starts: registers
and numbers are as they are written, and a branch keeps the distance to its label.  Only a
jump, which keeps the place of its label in the region, has to move along
(`Statement.Denotes.moved`).

So two source texts that can be assembled on their own can be assembled one behind the
other, if they define different labels, and the words are those of the first and then
those of the second, the jumps among them moved on by the length of the first
(`assemble_append`).
-/
namespace Mips

/-- The word with its target index moved on by `n` places of the region. -/
def Word.advanced (n : Nat) (w : Word) : Word :=
  UInt32.ofNat (w.toNat / 0x4000000 * 0x4000000 + (Word.index w + n) % 0x4000000)

namespace Operation

/-- The operation is one of the two jumps. -/
def Jumps : Operation → Prop
  | .j _ | .jal _ => True
  | _ => False

instance : DecidablePred Jumps
  | .j _ | .jal _ => .isTrue trivial
  | .add .. | .sub .. | .and .. | .or .. | .slt .. | .sll .. | .srl .. | .jr _ | .addi ..
  | .lw .. | .sw .. | .beq .. | .bne .. => .isFalse id

/-- The operation in a program that starts `n` instructions further up. -/
def moved (n : Nat) : Operation → Operation
  | .j index => .j ((index + n) % 0x4000000)
  | .jal index => .jal ((index + n) % 0x4000000)
  | op => op

variable {op : Operation}

theorem moved_of_not_jumps (h : ¬ op.Jumps) (n : Nat) : op.moved n = op := by
  cases op with
  | j | jal => exact absurd trivial h
  | _ => rfl

theorem Fits.moved (h : op.Fits) (n : Nat) : (op.moved n).Fits := by
  cases op with
  | j | jal => exact Nat.mod_lt _ (by decide)
  | _ => exact h

theorem Fits.moved_zero (h : op.Fits) : op.moved 0 = op := by
  cases op with
  | j index => exact congrArg Operation.j (Nat.mod_eq_of_lt h)
  | jal index => exact congrArg Operation.jal (Nat.mod_eq_of_lt h)
  | _ => rfl

/-- Moving a jump is moving the index in its word. -/
theorem encode_moved_of_jumps (h : op.Jumps) (n : Nat) :
    (op.moved n).instruction.encode = op.instruction.encode.advanced n := by
  have hadvanced : ∀ opCode index, (Instruction.j opCode ((index + n) % 0x4000000)).encode =
      (Instruction.j opCode index).encode.advanced n := by
    intro opCode index
    have hcode := opCode.code_lt
    unfold Word.advanced Word.index
    rw [Instruction.toNat_encode_j]
    refine congrArg UInt32.ofNat ?_
    omega
  cases op with
  | j index => exact hadvanced .j index
  | jal index => exact hadvanced .jal index
  | _ => exact h.elim

theorem encode_moved (op : Operation) (n : Nat) : (op.moved n).instruction.encode =
    if op.Jumps then op.instruction.encode.advanced n else op.instruction.encode := by
  split
  · next h => exact encode_moved_of_jumps h n
  · next h => rw [moved_of_not_jumps h]

end Operation

/-- Only the two jumps denote jumps. -/
theorem Statement.Denotes.jumps_iff {labels : String → Nat → Prop} {slot : Nat}
    {statement : Statement} {op : Operation} (h : statement.Denotes labels slot op) :
    op.Jumps ↔ statement.mnemonic = "j" ∨ statement.mnemonic = "jal" := by
  obtain ⟨spelling, operands⟩ := statement
  obtain ⟨m, hm, h⟩ := h
  dsimp only at hm h ⊢
  rw [← Mnemonic.isSpelled_iff.mp hm]
  cases h with
  | jump hform => cases hform <;> exact iff_of_true trivial (by decide)
  | threeRegisters hform | shift hform | displaced hform | branch hform =>
    cases hform <;> exact iff_of_false id (by decide)
  | jr | addi => exact iff_of_false id (by decide)

/-! ## Denotation in another place -/

section
variable {labels labels' : String → Nat → Prop} {n slot : Nat}
  (hlabels : ∀ name k, labels name k → labels' name (n + k))
include hlabels

theorem Mnemonic.Denotes.moved {m : Mnemonic} {operands : List Operand} {op : Operation}
    (h : m.Denotes labels slot operands op) :
    m.Denotes labels' (n + slot) operands (op.moved n) := by
  cases h with
  | @threeRegisters _ f _ _ _ rd rs rt hform ha hb hc =>
    have hstays : (f rd rs rt).moved n = f rd rs rt := by cases hform <;> rfl
    rw [hstays]
    exact .threeRegisters hform ha hb hc
  | @shift _ f _ _ _ rd rt amount hform ha hb hc =>
    have hstays : (f rd rt amount).moved n = f rd rt amount := by cases hform <;> rfl
    rw [hstays]
    exact .shift hform ha hb hc
  | jr ha => exact .jr ha
  | addi ha hb hc => exact .addi ha hb hc
  | @displaced _ f _ _ _ rt rs offset hform ha hb hc =>
    have hstays : (f rt rs offset).moved n = f rt rs offset := by cases hform <;> rfl
    rw [hstays]
    exact .displaced hform ha hb hc
  | @branch _ f _ _ _ rs rt k hform ha hb hk =>
    -- a branch keeps the distance to its label
    have hdistance : ((k : Int) - (slot + 1)) = ((n + k : Nat) : Int) - ((n + slot : Nat) + 1) := by
      push_cast
      ring
    have hstays : (f rs rt (k - (slot + 1))).moved n =
        f rs rt (((n + k : Nat) : Int) - ((n + slot : Nat) + 1)) := by
      rw [hdistance]
      cases hform <;> rfl
    rw [hstays]
    exact .branch hform ha hb (hlabels _ k hk)
  | @jump _ f _ k hform hk =>
    -- a jump keeps the place of its label in the region, which moves along
    have hindex : ((textBase.toNat / 4 + k) % 0x4000000 + n) % 0x4000000 =
        (textBase.toNat / 4 + (n + k)) % 0x4000000 := by
      omega
    have hmoves : (f ((textBase.toNat / 4 + k) % 0x4000000)).moved n =
        f ((textBase.toNat / 4 + (n + k)) % 0x4000000) := by
      rw [← hindex]
      cases hform <;> rfl
    rw [hmoves]
    exact .jump hform (hlabels _ k hk)

/-- **Denotation moves along.**  If the slot of a statement and all labels are `n`
instructions further up, the statement denotes the same operation, moved. -/
theorem Statement.Denotes.moved {statement : Statement} {op : Operation}
    (h : statement.Denotes labels slot op) :
    statement.Denotes labels' (n + slot) (op.moved n) := by
  obtain ⟨m, hm, h⟩ := h
  exact ⟨m, hm, h.moved hlabels⟩

end

/-! ## Listings one behind the other -/

namespace Listing

variable {before after listing listing' : Listing} {name : String} {slot n : Nat}

theorem labels_append : labels (before ++ after) = labels before ++ labels after :=
  List.filterMap_append

theorem statements_append :
    statements (before ++ after) = statements before ++ statements after :=
  List.filterMap_append

theorem labels_renumbered (n : Nat) (listing : Listing) :
    labels (listing.map (Located.renumbered n)) = labels listing :=
  List.filterMap_map

theorem statements_renumbered (n : Nat) (listing : Listing) :
    statements (listing.map (Located.renumbered n)) =
      (statements listing).map (Located.renumbered n) := by
  unfold statements
  rw [List.filterMap_map, List.map_filterMap]
  refine List.filterMap_congr fun line _ => ?_
  cases hstatement : line.value.statement? <;>
    simp [Located.renumbered, Located.withValue, hstatement]

/-- The labels of the second listing stand behind the instructions of the first. -/
theorem defines_append : Defines (before ++ after) name slot ↔ Defines before name slot ∨
    ∃ k, Defines after name k ∧ slot = before.statements.length + k := by
  induction before generalizing slot with
  | nil => simp [not_defines_nil, statements]
  | cons line before ih =>
    rw [List.cons_append, defines_cons, defines_cons, length_statements_cons]
    simp only [ih]
    constructor
    · rintro (hfirst | ⟨slot, hslot | ⟨k, hk, rfl⟩, rfl⟩)
      · exact .inl (.inl hfirst)
      · exact .inl (.inr ⟨slot, hslot, rfl⟩)
      · exact .inr ⟨k, hk, (Nat.add_assoc _ _ _).symm⟩
    · rintro ((hfirst | ⟨slot, hslot, rfl⟩) | ⟨k, hk, rfl⟩)
      · exact .inl hfirst
      · exact .inr ⟨slot, .inl hslot, rfl⟩
      · exact .inr ⟨_, .inr ⟨k, hk, rfl⟩, Nat.add_assoc _ _ _⟩

theorem defines_renumbered :
    Defines (listing.map (Located.renumbered n)) name slot ↔ Defines listing name slot := by
  induction listing generalizing slot with
  | nil => rfl
  | cons line listing ih =>
    rw [List.map_cons, defines_cons, defines_cons]
    simp only [ih]
    rfl

/-- In a program that fits the address space every label is found at its place. -/
theorem Maps.finds {addressOf : String → Option Address} (h : listing.Maps addressOf)
    (hsize : listing.statements.length < 0x3FF00000) :
    Statement.Finds addressOf listing.Defines := fun name _ hk =>
  ⟨Nat.lt_of_le_of_lt hk.le hsize, (h name _).mpr ⟨_, hk, rfl⟩⟩

end Listing

/-! ## Programs one behind the other -/

namespace Program

variable {source : String} {listing before after : Listing} {program first second : Program}
  {n m : Nat}

/-- What the statement in a slot denotes is the operation in the slot. -/
theorem denotes_operation (hparse : Listing.parse source = .ok listing)
    (h : ofListing listing = .ok program) (hsize : listing.statements.length < 0x3FF00000)
    {i : Nat} {op : Operation} (hop : program.operations[i]? = some op) :
    ∃ line, listing.statements[i]? = some line ∧ line.value.Denotes listing.Defines i op ∧
      op.Fits := by
  have hi : i < listing.statements.length := by
    rw [← length_operations h]
    exact (List.getElem?_eq_some_iff.mp hop).1
  have hline := List.getElem?_eq_getElem hi
  obtain ⟨op', hop', hdenotes, hfits⟩ := denotes_of_ofListing hsize hparse h hline
  cases hop.symm.trans hop'
  exact ⟨_, hline, hdenotes, hfits⟩

/-- The statements of a listing further up are resolved to its operations, moved. -/
theorem mapM_resolveAt_moved {labels : String → Nat → Prop}
    {addressOf : String → Option Address} {lines : List (Located Statement)}
    (hparse : Listing.parse source = .ok listing) (h : ofListing listing = .ok program)
    (hlines : lines.map Located.value = listing.statements.map Located.value)
    (hlabels : ∀ name k, listing.Defines name k → labels name (n + k))
    (hfinds : Statement.Finds addressOf labels)
    (hsize : n + listing.statements.length < 0x3FF00000) :
    ((lines.zipIdx n).mapM fun p => resolveAt addressOf p.2 p.1) =
      .ok (program.operations.map (Operation.moved n)) := by
  have hlength : lines.length = listing.statements.length := by
    simpa using congrArg List.length hlines
  refine mapM_eq_ok_iff.mpr (List.forall₂_iff_get.mpr ⟨?_, fun i hi hi' => ?_⟩)
  · rw [List.length_zipIdx, List.length_map, length_operations h, hlength]
  · rw [List.length_zipIdx] at hi
    rw [List.length_map] at hi'
    obtain ⟨line, hline, hdenotes, hfits⟩ :=
      denotes_operation hparse h (by omega) (List.getElem?_eq_getElem hi')
    have hvalue : lines[i].value = line.value := by
      have hget := congrArg (·[i]?) hlines
      simpa [hi, hline] using hget
    have hslot : n + i < 0x3FF00000 := by omega
    have hresolve := Statement.resolve_of_denotes hfinds hslot (hdenotes.moved hlabels)
      (hfits.moved n)
    simp only [List.get_eq_getElem, List.getElem_zipIdx, List.getElem_map]
    exact mapError_eq_ok.mpr (hvalue ▸ hresolve)

/-- **Listings one behind the other** denote the operations of the first and, moved, those
of the second. -/
theorem ofListing_append {a b : String} (ha : Listing.parse a = .ok before)
    (hb : Listing.parse b = .ok after) (hfirst : ofListing before = .ok first)
    (hsecond : ofListing after = .ok second) (hdisjoint : before.labels.Disjoint after.labels)
    (hsize : before.statements.length + after.statements.length < 0x3FF00000) :
    ∃ symbols, ofListing (before ++ after.map (Located.renumbered m)) =
      .ok ⟨symbols, first.operations.map (Operation.moved 0) ++
        second.operations.map (Operation.moved before.statements.length)⟩ := by
  have hnodup : (Listing.labels (before ++ after.map (Located.renumbered m))).Nodup := by
    rw [Listing.labels_append, Listing.labels_renumbered]
    exact List.Nodup.append
      (Symbols.exists_ofListing_iff.mp ⟨_, (ofListing_eq_ok_iff.mp hfirst).1⟩)
      (Symbols.exists_ofListing_iff.mp ⟨_, (ofListing_eq_ok_iff.mp hsecond).1⟩) hdisjoint
  obtain ⟨symbols, hsymbols⟩ := Symbols.exists_ofListing_iff.mpr hnodup
  have hstatements : Listing.statements (before ++ after.map (Located.renumbered m)) =
      before.statements ++ after.statements.map (Located.renumbered m) := by
    rw [Listing.statements_append, Listing.statements_renumbered]
  have hfinds := (Listing.maps_of_ofListing hsymbols).finds (by simpa [hstatements] using hsize)
  have hoperations₁ := mapM_resolveAt_moved (n := 0) ha hfirst rfl
    (fun name k hk => Listing.defines_append.mpr (.inl ((Nat.zero_add k).symm ▸ hk)))
    hfinds (by omega)
  have hlines : (after.statements.map (Located.renumbered m)).map Located.value =
      after.statements.map Located.value := by
    simp [Located.renumbered]
  have hoperations₂ := mapM_resolveAt_moved hb hsecond hlines
    (fun name k hk => Listing.defines_append.mpr
      (.inr ⟨k, Listing.defines_renumbered.mpr hk, rfl⟩))
    hfinds (by omega)
  refine ⟨symbols, ofListing_eq_ok_iff.mpr ⟨hsymbols, ?_⟩⟩
  rw [hstatements, List.zipIdx_append, Nat.zero_add]
  exact List.rel_append (mapM_eq_ok_iff.mp hoperations₁) (mapM_eq_ok_iff.mp hoperations₂)

end Program

/-- **Assembly is compositional.**  Two source texts that can be assembled and define
different labels can be assembled one behind the other, unless their addresses do not fit
a word together.  The words of the first stay as they are, and so do those of the second
but for its jumps, whose index moves on by the number of words in front of them.  In
particular branches do not depend on where a program starts. -/
theorem assemble_append {a b : String} {before after : Listing} {first second : List Word}
    (ha : Listing.parse a = .ok before) (hb : Listing.parse b = .ok after)
    (hfirst : assemble a = .ok first) (hsecond : assemble b = .ok second)
    (hlabels : before.labels.Disjoint after.labels)
    (hsize : first.length + second.length < 0x40000000 - 0x100000) :
    ∃ moved, assemble (a ++ "\n" ++ b) = .ok (first ++ moved) ∧
      moved.length = second.length ∧
      ∀ (i : Nat) (line : Located Statement) (w : Word), after.statements[i]? = some line →
        second[i]? = some w →
        moved[i]? = some (if line.value.mnemonic = "j" ∨ line.value.mnemonic = "jal" then
          w.advanced first.length else w) := by
  obtain ⟨_, program₁, ha', hprogram₁, rfl⟩ := assemble_eq_ok_iff.mp hfirst
  obtain ⟨_, program₂, hb', hprogram₂, rfl⟩ := assemble_eq_ok_iff.mp hsecond
  cases ha.symm.trans ha'
  cases hb.symm.trans hb'
  have hlength₁ : program₁.words.length = before.statements.length := by
    rw [Program.words_length, Program.length_operations hprogram₁]
  have hlength₂ : program₂.words.length = after.statements.length := by
    rw [Program.words_length, Program.length_operations hprogram₂]
  rw [hlength₁, hlength₂] at hsize
  rw [hlength₁]
  obtain ⟨symbols, happend⟩ := Program.ofListing_append ha hb hprogram₁ hprogram₂ hlabels hsize
  have hstays : program₁.operations.map (Operation.moved 0) = program₁.operations := by
    refine (List.map_congr_left (g := id) fun op hop => ?_).trans (List.map_id _)
    obtain ⟨i, hi⟩ := List.getElem?_of_mem hop
    obtain ⟨-, -, -, hfits⟩ := Program.denotes_operation ha hprogram₁ (by omega) hi
    exact hfits.moved_zero
  refine ⟨program₂.operations.map fun op =>
    (op.moved before.statements.length).instruction.encode, ?_, ?_, ?_⟩
  · refine assemble_eq_ok_iff.mpr ⟨_, _, Listing.parse_append ha hb, happend, ?_⟩
    simp [Program.words, Program.instructions, hstays]
  · rw [List.length_map, Program.words_length]
  · intro i line w hline hw
    simp only [Program.words, Program.instructions, List.map_map, List.getElem?_map,
      Option.map_eq_some_iff] at hw ⊢
    obtain ⟨op, hop, rfl⟩ := hw
    obtain ⟨line', hline', hdenotes, -⟩ := Program.denotes_operation hb hprogram₂ (by omega) hop
    cases hline.symm.trans hline'
    refine ⟨op, hop, ?_⟩
    rw [Operation.encode_moved]
    simp only [hdenotes.jumps_iff, Function.comp_apply]

theorem assemble_append_of_two_loops :
    assemble "x: j x # end" = .ok [0x08100000] ∧
      assemble "y: beq $0, $0, y\n jal y" = .ok [0x1000FFFF, 0x0C100000] ∧
      ∃ moved, assemble ("x: j x # end" ++ "\n" ++ "y: beq $0, $0, y\n jal y") =
          .ok ([0x08100000] ++ moved) ∧ moved.length = 2 ∧
        moved[0]? = some 0x1000FFFF ∧ moved[1]? = some 0x0C100001 := by
  have hfirst : assemble "x: j x # end" = .ok [0x08100000] := by decide +kernel
  have hsecond : assemble "y: beq $0, $0, y\n jal y" = .ok [0x1000FFFF, 0x0C100000] := by
    decide +kernel
  let before : Listing := [⟨1, "x: j x", .statement (some "x") ⟨"j", [.label "x"]⟩⟩]
  let after : Listing :=
    [⟨1, "y: beq $0, $0, y", .statement (some "y")
      ⟨"beq", [.register (.numbered 0), .register (.numbered 0), .label "y"]⟩⟩,
      ⟨2, "jal y", .statement none ⟨"jal", [.label "y"]⟩⟩]
  have ha : Listing.parse "x: j x # end" = .ok before := by decide +kernel
  have hb : Listing.parse "y: beq $0, $0, y\n jal y" = .ok after := by decide +kernel
  have hlabels : ["x"].Disjoint ["y"] := by simp
  obtain ⟨moved, happend, hlength, hwords⟩ :=
    assemble_append ha hb hfirst hsecond hlabels (by decide)
  exact ⟨hfirst, hsecond, moved, happend, hlength, hwords 0 _ _ rfl rfl, hwords 1 _ _ rfl rfl⟩

end Mips
