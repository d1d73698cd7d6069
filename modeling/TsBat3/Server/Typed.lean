import TsBat3.Server.Calls
import Mathlib.Data.List.TakeWhile

/-! # What a client types

A number is read from a line as it is printed, and a command with a number changes the daemon by
the `int` that the number is stored in, and by nothing else (`TsBat3.typed_number`).
-/

namespace TsBat3

/-! ### Numbers -/

/-- The byte of a character. -/
def byteOf (char : Char) : Byte := BitVec.ofNat 8 char.toNat

private theorem digit_byteOf :
    ∀ number < 10, digit 10 (byteOf (Nat.digitChar number)) = some number := by
  decide +kernel

/-- A digit is neither a space nor a sign. -/
theorem byteOf_digitChar : ∀ number < 10,
    isSpace (byteOf (Nat.digitChar number)) = false ∧
      byteOf (Nat.digitChar number) ≠ 0x2D ∧ byteOf (Nat.digitChar number) ≠ 0x2B ∧
      byteOf (Nat.digitChar number) ≠ 0 ∧
      (byteOf (Nat.digitChar number) = 0x30 → number = 0) := by
  decide +kernel

/-- The digits of a number, the first of which is 0 for 0 alone. -/
theorem toDigits_cases (number : Nat) : ∃ first rest, first < 10 ∧ (∀ digit ∈ rest, digit < 10) ∧
    (Nat.toDigits 10 number).map byteOf = (first :: rest).map (byteOf ∘ Nat.digitChar) ∧
    (first = 0 → number = 0 ∧ rest = []) ∧
    (first :: rest).foldl (fun value digit => 10 * value + digit) 0 = number := by
  induction number using Nat.strongRecOn with
  | _ number ih =>
      rw [Nat.toDigits_eq_if (by decide)]
      by_cases small : number < 10
      · rw [if_pos small]
        refine ⟨number, [], small, fun digit member => absurd member List.not_mem_nil, rfl,
          fun zero => ⟨zero, rfl⟩, ?_⟩
        rw [List.foldl_cons, List.foldl_nil]
        omega
      · rw [if_neg small]
        obtain ⟨first, rest, one, others, same, zero, value⟩ := ih (number / 10) (by omega)
        refine ⟨first, rest ++ [number % 10], one, ?_, ?_, ?_, ?_⟩
        · intro digit member
          rcases List.mem_append.mp member with early | last
          · exact others digit early
          · rw [List.mem_singleton.mp last]
            omega
        · rw [List.map_append, same, ← List.cons_append, List.map_append]
          rfl
        · intro none
          have nothing := (zero none).1
          omega
        · rw [← List.cons_append, List.foldl_append, value, List.foldl_cons, List.foldl_nil]
          omega

/-- The digits of a number are read as that number. -/
theorem scanDigits_digits {first : Nat} {rest : List Nat} (one : first < 10)
    (others : ∀ digit ∈ rest, digit < 10) :
    scanDigits 10 ((first :: rest).map (byteOf ∘ Nat.digitChar)) =
      some (((first :: rest).foldl (fun value digit => 10 * value + digit) 0 : Nat) : Int) := by
  have small : ∀ number ∈ first :: rest, number < 10 := by
    intro number member
    rcases List.mem_cons.mp member with same | later
    · rw [same]
      exact one
    · exact others number later
  have digits : ((first :: rest).map (byteOf ∘ Nat.digitChar)).map (digit 10) =
      (first :: rest).map some := by
    rw [List.map_map]
    exact List.map_congr_left fun number member => digit_byteOf number (small number member)
  have all : ((first :: rest).map some).takeWhile Option.isSome = (first :: rest).map some := by
    apply List.takeWhile_eq_self_iff.mpr
    intro number member
    obtain ⟨value, -, rfl⟩ := List.mem_map.mp member
    rfl
  unfold scanDigits
  dsimp only
  rw [digits, all, if_neg (by rw [List.map_cons]; exact List.cons_ne_nil _ _), List.foldl_map]
  exact congrArg some (List.foldl_hom Nat.cast fun value number => by push_cast; rfl)

/-- A prefix of `%i` begins with 0. -/
theorem scanUnsigned_decimal {byte : Byte} (other : byte ≠ 0x30) (rest : List Byte) :
    scanUnsigned true (byte :: rest) = scanDigits 10 (byte :: rest) := by
  unfold scanUnsigned
  split
  · rename_i same
    exact absurd (List.cons.inj same).1 other
  · rename_i same
    exact absurd (List.cons.inj same).1 other
  · rename_i same
    exact absurd (List.cons.inj same).1 other
  · rfl

/-- What is printed of a number begins with a digit, and is read as the number. -/
theorem scanUnsigned_repr (number : Nat) : ∃ byte rest, text number.repr = byte :: rest ∧
    isSpace byte = false ∧ byte ≠ 0x2D ∧ byte ≠ 0x2B ∧
    scanUnsigned true (byte :: rest) = some (number : Int) := by
  obtain ⟨first, rest, one, others, same, zero, value⟩ := toDigits_cases number
  obtain ⟨letter, minus, plus, -, nought⟩ := byteOf_digitChar first one
  have printed : text number.repr = (first :: rest).map (byteOf ∘ Nat.digitChar) := by
    rw [← same, ← Nat.toList_repr]
    rfl
  refine ⟨byteOf (Nat.digitChar first), rest.map (byteOf ∘ Nat.digitChar), printed, letter, minus,
    plus, ?_⟩
  by_cases prefixed : byteOf (Nat.digitChar first) = 0x30
  · obtain ⟨rfl, rfl⟩ := zero (nought prefixed)
    rw [nought prefixed]
    decide +kernel
  · rw [scanUnsigned_decimal prefixed]
    have read := scanDigits_digits one others
    rw [value] at read
    exact read

private theorem text_negSucc (number : Nat) :
    text (toString (Int.negSucc number)) = 0x2D :: text (number + 1).repr := by
  change text ("-" ++ (number + 1).repr) = text "-" ++ text (number + 1).repr
  unfold text
  rw [← List.map_append, ← String.toList_append]

/-- **A number is read as it is printed.** -/
theorem scanSigned_toString (number : Int) :
    scanSigned true (text (toString number)) = some number := by
  cases number with
  | ofNat number =>
      obtain ⟨byte, rest, printed, letter, minus, plus, read⟩ := scanUnsigned_repr number
      have same : text (toString (Int.ofNat number)) = byte :: rest := printed
      unfold scanSigned
      rw [same, List.dropWhile_cons_of_neg (by rw [letter]; exact Bool.false_ne_true)]
      split
      · rename_i begins
        exact absurd (List.cons.inj begins).1 minus
      · rename_i begins
        exact absurd (List.cons.inj begins).1 plus
      · exact read
  | negSucc number =>
      obtain ⟨byte, rest, printed, -, -, -, read⟩ := scanUnsigned_repr (number + 1)
      rw [text_negSucc, printed]
      change (scanUnsigned true (byte :: rest)).map (- ·) = _
      rw [read]
      rfl

theorem scanInt_toString (number : Int) :
    scanInt true (text (toString number)) = some (storedInt number) := by
  rw [scanInt, scanSigned_toString, Option.map_some]

/-! ### Lines -/

/-- A word of a line. -/
structure IsWord (word : List Byte) : Prop where
  filled : word ≠ []
  letters : ∀ byte ∈ word, isSpace byte = false ∧ byte ≠ 0

private theorem isWord_repr (number : Nat) : IsWord (text number.repr) := by
  obtain ⟨first, rest, one, others, same, -, -⟩ := toDigits_cases number
  have printed : text number.repr = (first :: rest).map (byteOf ∘ Nat.digitChar) := by
    rw [← same, ← Nat.toList_repr]
    rfl
  rw [printed]
  refine ⟨List.cons_ne_nil _ _, fun byte member => ?_⟩
  obtain ⟨number, inside, rfl⟩ := List.mem_map.mp member
  have small : number < 10 := by
    rcases List.mem_cons.mp inside with same | later
    · rw [same]
      exact one
    · exact others number later
  obtain ⟨letter, -, -, char, -⟩ := byteOf_digitChar number small
  exact ⟨letter, char⟩

/-- A number is printed as a word. -/
theorem isWord_toString (number : Int) : IsWord (text (toString number)) := by
  cases number with
  | ofNat number => exact isWord_repr number
  | negSucc number =>
      obtain ⟨-, letters⟩ := isWord_repr (number + 1)
      rw [text_negSucc]
      refine ⟨List.cons_ne_nil _ _, fun byte member => ?_⟩
      rcases List.mem_cons.mp member with same | later
      · rw [same]
        decide
      · exact letters byte later

/-- The first word of a line is read up to the space behind it. -/
theorem scanWord_word {word : List Byte} (isWord : IsWord word) {byte : Byte}
    (space : isSpace byte = true) (rest : List Byte) :
    scanWord (word ++ byte :: rest) = some (word, byte :: rest) := by
  obtain ⟨filled, letters⟩ := isWord
  obtain ⟨letter, others, rfl⟩ := List.exists_cons_of_ne_nil filled
  have begins : isSpace letter = false := (letters letter List.mem_cons_self).1
  have inside : ∀ other ∈ letter :: others, (! isSpace other) = true := by
    intro other member
    rw [(letters other member).1]
    rfl
  unfold scanWord
  rw [List.cons_append, List.dropWhile_cons_of_neg (by rw [begins]; exact Bool.false_ne_true)]
  dsimp only
  rw [List.span_eq_takeWhile_dropWhile, ← List.cons_append, List.takeWhile_append_of_pos inside,
    List.dropWhile_append_of_pos inside, List.takeWhile_cons_of_neg (by rw [space]; decide),
    List.dropWhile_cons_of_neg (by rw [space]; decide), List.append_nil]

/-- A command and its argument are read from a line. -/
theorem scanLine_words {first second : List Byte} (command : IsWord first)
    (argument : IsWord second) (cmd : List Byte) :
    scanLine (first ++ 0x20 :: (second ++ [0x0A])) cmd = (2, first, second) := by
  have blank : scanWord (0x20 :: (second ++ [0x0A])) = some (second, [0x0A]) := by
    have skipped : scanWord (0x20 :: (second ++ [0x0A])) = scanWord (second ++ [0x0A]) := by
      unfold scanWord
      rw [List.dropWhile_cons_of_pos (by decide)]
    rw [skipped, scanWord_word argument (by decide)]
  unfold scanLine
  rw [scanWord_word command (by decide)]
  dsimp only
  rw [blank]

/-! ### Commands -/

section Typed

variable {F : Type} {sys : Answers}

/-- The daemon is what it was. -/
def SameDaemon (net next : Net F) : Prop := next.daemon = net.daemon

instance : Std.Refl (SameDaemon : Net F → Net F → Prop) where
  refl _ := rfl

instance : IsTrans (Net F) SameDaemon where
  trans _ _ _ first second := second.trans first

/-- The daemon has been given one command. -/
def Given (command : Command) (net next : Net F) : Prop :=
  next.daemon = runCommand net.daemon command

theorem writesKeep_sameDaemon (fd : Int) :
    WritesKeep sys fd (SameDaemon : Net F → Net F → Prop) :=
  .of_replied fun net cnt _ _ => replied_daemon net fd cnt

theorem Given.before {α β : Type} {command : Command} {first : Server F α} {rest : α → Server F β}
    (same : Keeps SameDaemon first) (given : ∀ value, Keeps (Given command) (rest value)) :
    Keeps (Given command) (first >>= rest) := by
  intro net
  exact (given _ _).trans (congrArg (runCommand · command) (same net))

theorem Given.after {α β : Type} {command : Command} {first : Server F α} {rest : α → Server F β}
    (given : Keeps (Given command) first) (same : ∀ value, Keeps SameDaemon (rest value)) :
    Keeps (Given command) (first >>= rest) := by
  intro net
  exact (same _ _).trans (given net)

/-- The command that a handler gives for a number. -/
def commandOf (now : Time) (number : Int) : Handler → Option Command
  | .cmdCurrent => some (.current (some number))
  | .cmdHours => some (.hours now (some number))
  | .cmdLoglevel => some (.loglevel (some number))
  | _ => none

theorem given_handle (fd : Int) {rest : List Byte} {number : Int}
    (read : scanInt true rest = some number) {handler : Handler} {command : Command}
    (takes : commandOf sys.now number handler = some command) :
    Keeps (Given command : Net F → Net F → Prop) (handle sys fd rest handler) := by
  have same := @writesKeep_sameDaemon F sys fd
  cases handler with
  | cmdCurrent =>
      rw [← Option.some.inj takes]
      apply Given.before (same.logabba _ _ _)
      intro _
      refine Given.before Keeps.get fun net => ?_
      rw [read]
      apply Given.before (same.logabba _ _ _)
      intro _
      apply Given.before (same.writeFd _ _)
      intro _
      refine Given.after (fun _ => rfl) fun _ => ?_
      exact Keeps.bind Keeps.get fun given => AnswersKeep.reply same.writeFd _ _ _
  | cmdHours =>
      rw [← Option.some.inj takes]
      refine Given.before Keeps.get fun net => ?_
      rw [read]
      refine Given.after (fun _ => rfl) fun _ => ?_
      exact Keeps.bind Keeps.get fun given => AnswersKeep.reply same.writeFd _ _ _
  | cmdLoglevel =>
      rw [← Option.some.inj takes]
      refine Given.before Keeps.get fun net => ?_
      rw [read]
      apply Given.before (same.logabba _ _ _)
      intro _
      apply Given.before (same.writeFd _ _)
      intro _
      refine Given.after (fun _ => rfl) fun _ => ?_
      exact Keeps.bind Keeps.get fun given => AnswersKeep.reply same.writeFd _ _ _
  | _ => nomatch takes

/-- **What a client types is what the daemon gets.** When a client sends a line of a command word
that takes a number, and a number as it is printed, the daemon is given that command with the `int`
that the number is stored in, which is the number if it fits. Nothing else of the daemon changes. -/
theorem typed_number (fd : Int) (net : Net F) (word : List Byte) (number : Int)
    (isWord : IsWord word) {handler : Handler} (recognised : handlerOf word = some handler)
    {command : Command} (takes : commandOf sys.now (storedInt number) handler = some command)
    (short : word.length + (text (toString number)).length + 2 ≤ 255)
    (read : sys.read fd = some (word ++ 0x20 :: (text (toString number) ++ [0x0A]))) :
    ((readSocket sys fd).run net).2.daemon = runCommand net.daemon command ∧
      (-2 ^ 31 ≤ number → number < 2 ^ 31 →
        commandOf sys.now number handler = some command) := by
  have whole : cString ((word ++ 0x20 :: (text (toString number) ++ [0x0A])).take 255) =
      word ++ 0x20 :: (text (toString number) ++ [0x0A]) := by
    rw [List.take_of_length_le]
    · apply List.takeWhile_eq_self_iff.mpr
      intro byte member
      apply bne_iff_ne.mpr
      rcases List.mem_append.mp member with first | later
      · exact (isWord.letters byte first).2
      rcases List.mem_cons.mp later with rfl | second
      · decide
      rcases List.mem_append.mp second with digits | last
      · exact ((isWord_toString number).letters byte digits).2
      · rw [List.mem_singleton.mp last]
        decide
    · simp only [List.length_append, List.length_cons, List.length_nil]
      omega
  have same := @writesKeep_sameDaemon F sys fd
  have keeps : Keeps (Given command : Net F → Net F → Prop) (readSocket sys fd) := by
    unfold readSocket
    rw [read]
    dsimp only
    rw [whole, scanLine_words isWord (isWord_toString number)]
    dsimp only
    apply Given.before (complain_keeps same.writeFd (same.logabba _ _ _) 2)
    intro _
    refine Given.after (fun net => ?_) fun ret => promptAgain_keeps same.writeFd ret
    rw [dispatch_run recognised]
    have noted : SameDaemon net (net.noted handler) := rfl
    exact (given_handle fd (scanInt_toString number) takes (net.noted handler)).trans
      (congrArg (runCommand · command) noted)
  refine ⟨keeps net, fun low high => ?_⟩
  rw [← takes, storedInt_of_fits low high]

end Typed

/-- A client that asks for 450 mA gets them, and one that asks for 4294967396 mA gets 100 mA. -/
theorem typed_number_current :
    let typed (line : String) : Answers := { firstCall with read := fun _ => some (text line) }
    let net := startNet (startDaemon (0 : ℚ) [] .blank)
    ((readSocket (typed "current 450\n") 4).run net).2.daemon =
        runCommand net.daemon (.current (some 450)) ∧
      ((readSocket (typed "current 4294967396\n") 4).run net).2.daemon =
        runCommand net.daemon (.current (some 100)) := by
  intro typed net
  have isWord : IsWord (text "current") := ⟨by decide +kernel, by decide +kernel⟩
  have recognised : handlerOf (text "current") = some .cmdCurrent := by decide +kernel
  constructor
  · exact (typed_number 4 net (text "current") 450 isWord recognised rfl (by decide +kernel)
      (by decide +kernel)).1
  · exact (typed_number 4 net (text "current") 4294967396 isWord recognised rfl (by decide +kernel)
      (by decide +kernel)).1

end TsBat3
