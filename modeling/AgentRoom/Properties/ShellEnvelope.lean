import AgentRoom.Tools.Shell

set_option autoImplicit false

/-! # What the allowlist lets be started

The arguments some command can be accepted with are exactly those whose head is on the allowlist
and among which no shell separator stands alone: quoting neither smuggles a separator in nor keeps
anything else out (`exists_command_iff`). No other program is ever started, and what a timed-out
verification reports is a command that starts the same program again.
-/

namespace AgentRoom.Shell

/-- The arguments the allowlist permits. -/
def Permitted (allowlist argv : List String) : Prop :=
  (∃ head rest, argv = head :: rest ∧ head ∈ allowlist) ∧ ∀ token ∈ argv, token ∉ forbiddenTokens

/-- Splitting inverts joining. -/
theorem splitCommand_joinCommand (argv : List String) :
    splitCommand (joinCommand argv) = .ok argv := by
  have hback : (argv.map String.toList).map String.ofList = argv := by
    rw [List.map_map]
    exact List.map_id'' (fun s => String.ofList_toList) argv
  rw [splitCommand, joinCommand, String.toList_ofList, Shlex.split_join]
  exact congrArg Except.ok hback

/-- What is accepted. -/
theorem enforceCommandAllowlist_eq_ok_iff {command : String} {allowlist argv : List String} :
    enforceCommandAllowlist command allowlist = .ok argv ↔
      splitCommand command = .ok argv ∧ Permitted allowlist argv := by
  unfold enforceCommandAllowlist
  constructor
  · intro h
    split at h
    · cases h
    · split at h
      · cases h
      · cases h
      · rename_i head rest hsplit
        split at h
        · cases h
        · rename_i hhead
          split at h
          · cases h
          · rename_i hnone
            obtain rfl := Except.ok.inj h
            have hclean : ∀ token ∈ head :: rest, token ∉ forbiddenTokens := by
              simpa using List.find?_eq_none.mp hnone
            exact ⟨hsplit, ⟨head, rest, rfl, by simpa using hhead⟩, hclean⟩
  · rintro ⟨hsplit, ⟨head, rest, rfl, hhead⟩, hclean⟩
    have hne : allowlist ≠ [] := List.ne_nil_of_mem hhead
    have hnone : (head :: rest).find? (fun token => decide (token ∈ forbiddenTokens)) = none :=
      List.find?_eq_none.mpr (by simpa using hclean)
    rw [if_neg hne, hsplit]
    dsimp only
    rw [if_neg (not_not.mpr hhead), hnone]

/-- **The envelope of the shell.** For every allowlist: an argument list is what some command is
accepted with if and only if its head is on the allowlist and no argument is a shell separator.
And whatever the command is, only such an argument list is ever started: programs that end
alike on those give the same result. -/
theorem shell_envelope (tool : ShellTool) :
    (∀ argv, (∃ command, enforceCommandAllowlist command tool.allowlist = .ok argv) ↔
      Permitted tool.allowlist argv) ∧
    ∀ spawn spawn' : List String → ProcessEnd,
      (∀ argv, Permitted tool.allowlist argv → spawn argv = spawn' argv) →
      ∀ command, tool.run spawn command = tool.run spawn' command := by
  refine ⟨fun argv => ⟨?_, ?_⟩, ?_⟩
  · rintro ⟨command, h⟩
    exact (enforceCommandAllowlist_eq_ok_iff.mp h).2
  · intro h
    exact ⟨joinCommand argv, enforceCommandAllowlist_eq_ok_iff.mpr ⟨splitCommand_joinCommand argv, h⟩⟩
  · intro spawn spawn' hsame command
    unfold ShellTool.run
    split
    · rfl
    · split
      · rfl
      · rename_i argv hargv
        rw [hsame argv (enforceCommandAllowlist_eq_ok_iff.mp hargv).2]

/-- **A timed-out verification reports what it ran.** For every command, allowlist and program: if
the verification times out, its output tail holds, between the parentheses, a command that the
same allowlist accepts, with exactly the arguments that were started. -/
theorem timed_out_command_reruns {allowlist : List String} {spawn : List String → OracleEnd}
    {command reported : String}
    (h : attemptVerifyCommand allowlist spawn command = .timedOut reported) (roundNo : Nat) :
    ∃ argv, spawn argv = .timedOut ∧ enforceCommandAllowlist command allowlist = .ok argv ∧
      enforceCommandAllowlist reported allowlist = .ok argv ∧
      (runVerifyCommand (attemptVerifyCommand allowlist spawn command) roundNo).outputTail =
        "verify_command timed out after 60.0s (" ++ reported ++ ")" := by
  have hattempt := h
  unfold attemptVerifyCommand at h
  split at h
  · cases h
  · rename_i argv hargv
    split at h
    · cases h
    · rename_i hend
      obtain rfl := OracleOutcome.timedOut.inj h
      refine ⟨argv, hend, hargv, ?_, ?_⟩
      · exact enforceCommandAllowlist_eq_ok_iff.mpr
          ⟨splitCommand_joinCommand argv, (enforceCommandAllowlist_eq_ok_iff.mp hargv).2⟩
      · rw [hattempt]
        rfl
    · cases h

/-- A test run with an argument that needs quotes. -/
theorem timed_out_command_reruns_pytest :
    ∃ argv, enforceCommandAllowlist "pytest -k 'slow or big'" ["pytest"] = .ok argv ∧
      enforceCommandAllowlist (joinCommand argv) ["pytest"] = .ok argv ∧
      argv = ["pytest", "-k", "slow or big"] := by
  have haccepted : enforceCommandAllowlist "pytest -k 'slow or big'" ["pytest"] =
      .ok ["pytest", "-k", "slow or big"] := by decide
  have hattempt : attemptVerifyCommand ["pytest"] (fun _ => .timedOut) "pytest -k 'slow or big'" =
      .timedOut (joinCommand ["pytest", "-k", "slow or big"]) := by
    rw [attemptVerifyCommand, haccepted]
  obtain ⟨argv, -, hargv, hreported, -⟩ := timed_out_command_reruns hattempt 1
  rw [haccepted] at hargv
  obtain rfl := Except.ok.inj hargv
  exact ⟨_, haccepted, hreported, rfl⟩

end AgentRoom.Shell
