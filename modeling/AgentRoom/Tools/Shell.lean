import AgentRoom.Guardrail
import AgentRoom.Lib.Shlex
import AgentRoom.Lib.Utf8
import AgentRoom.Roles.Goal

set_option autoImplicit false

/-! # Commands: the allowlist, the shell tool and the oracle

A command is split into its arguments and checked before anything is started. What a started
program does is a parameter: how the process of an argument list ends.
-/

namespace AgentRoom.Shell

/-- `shlex.split`. -/
def splitCommand (command : String) : Except Shlex.Error (List String) :=
  (Shlex.split command.toList).map (List.map String.ofList)

/-- `shlex.join`. -/
def joinCommand (argv : List String) : String :=
  String.ofList (Shlex.join (argv.map String.toList))

/-! ## The allowlist -/

/-- `forbidden_tokens`. -/
def forbiddenTokens : List String := [";", "&&", "||", "|", ">", ">>", "<", "&"]

/-- What `enforce_command_allowlist` raises. -/
inductive CommandError
  | emptyAllowlist
  | cannotParse (e : Shlex.Error)
  | emptyCommand
  | notAllowed (head : String) (allowlist : List String)
  | separator (token : String)
  deriving DecidableEq, Repr

/-- `str(exc)` of a `ValueError` of `shlex`. -/
def shlexErrorText : Shlex.Error → String
  | .noClosingQuotation => "No closing quotation"
  | .noEscapedCharacter => "No escaped character"

/-- `repr` of a list of strings. -/
def reprList (xs : List String) : String := "[" ++ Py.join ", " (xs.map Py.repr) ++ "]"

/-- The text of the `ValueError`. -/
def CommandError.text : CommandError → String
  | .emptyAllowlist => "shell tool: allowlist must be non-empty"
  | .cannotParse e => "shell tool: cannot parse command: " ++ shlexErrorText e
  | .emptyCommand => "shell tool: empty command"
  | .notAllowed head allowlist =>
      "shell tool: command " ++ Py.repr head ++ " not in allowlist " ++ reprList allowlist
  | .separator token =>
      "shell tool: token " ++ Py.repr token ++ " is a shell separator; " ++
        "use multiple separate tool calls instead"

/-- `enforce_command_allowlist`. -/
def enforceCommandAllowlist (command : String) (allowlist : List String) :
    Except CommandError (List String) :=
  if allowlist = [] then .error .emptyAllowlist
  else
    match splitCommand command with
    | .error e => .error (.cannotParse e)
    | .ok [] => .error .emptyCommand
    | .ok (head :: rest) =>
        if head ∉ allowlist then .error (.notAllowed head allowlist)
        else
          match (head :: rest).find? (fun token => decide (token ∈ forbiddenTokens)) with
          | some token => .error (.separator token)
          | none => .ok (head :: rest)

/-! ## `ShellTool` -/

/-- `_truncate_bytes`. -/
def truncateBytes (b : List UInt8) (maxBytes : Nat) : String :=
  let decode (b : List UInt8) :=
    String.ofList ((Utf8.decode .start b).2 ++ Utf8.flush (Utf8.decode .start b).1)
  if b.length ≤ maxBytes then decode b
  else decode (b.take maxBytes) ++ "\n[... truncated, " ++ toString (b.length - maxBytes) ++
    " more bytes]"

/-- How `subprocess.run` ends. -/
inductive ProcessEnd
  | completed (returncode : Int) (stdout stderr : List UInt8)
  | timedOut (stdout stderr : Option (List UInt8))
  | notFound (reason : String)
  | raised (reason : String)

/-- What `ShellTool._run` raises. -/
inductive ShellFault
  | guardrail (finding : GuardrailFinding)
  | command (e : CommandError)
  | other (reason : String)

/-- The fields of a `ShellTool`; `timeout` is the text of `timeout_s`. -/
structure ShellTool where
  allowlist : List String
  timeout : String := "30.0"
  maxOutputBytes : Nat := 8 * 1024
  guardrail : Option Guardrail := none

namespace ShellTool

/-- The text of a process that has ended. -/
def outputText (tool : ShellTool) (argv : List String) : ProcessEnd → Except ShellFault String
  | .completed returncode stdout stderr =>
      .ok ("[exit " ++ toString returncode ++ "]\n--- stdout ---\n" ++
        truncateBytes stdout tool.maxOutputBytes ++ "\n--- stderr ---\n" ++
        truncateBytes stderr tool.maxOutputBytes)
  | .timedOut stdout stderr =>
      .ok ("[timeout after " ++ tool.timeout ++ "s]\n--- stdout (partial) ---\n" ++
        truncateBytes (stdout.getD []) tool.maxOutputBytes ++ "\n--- stderr (partial) ---\n" ++
        truncateBytes (stderr.getD []) tool.maxOutputBytes)
  | .notFound reason => .ok ("[command not found: " ++ argv.headD "" ++ "] " ++ reason)
  | .raised reason => .error (.other reason)

/-- The checkpoint in front of the command. -/
def checkCommand (tool : ShellTool) (command : String) : Except ShellFault Unit :=
  match tool.guardrail with
  | none => .ok ()
  | some g =>
      match g.check command .toolCall with
      | .error finding => .error (.guardrail finding)
      | .ok _ => .ok ()

/-- `ShellTool._run`; `spawn` is `subprocess.run`. -/
def run (tool : ShellTool) (spawn : List String → ProcessEnd) (command : String) :
    Except ShellFault String :=
  match tool.checkCommand command with
  | .error fault => .error fault
  | .ok () =>
      match enforceCommandAllowlist command tool.allowlist with
      | .error e => .error (.command e)
      | .ok argv => tool.outputText argv (spawn argv)

end ShellTool

/-! ## The oracle's command -/

/-- How the process of the oracle ends, where starting it does not raise. -/
inductive OracleEnd
  | failedToStart (reason : String)
  | timedOut
  | exited (returncode : Int) (stdout : String)

/-- `_run_verify_command` up to its result, of which `runVerifyCommand` makes the verification. -/
def attemptVerifyCommand (allowlist : List String) (spawn : List String → OracleEnd)
    (command : String) : OracleOutcome :=
  match enforceCommandAllowlist command allowlist with
  | .error e => .rejected e.text
  | .ok argv =>
      match spawn argv with
      | .failedToStart reason => .failedToStart reason
      | .timedOut => .timedOut (joinCommand argv)
      | .exited returncode stdout => .exited returncode stdout

end AgentRoom.Shell
