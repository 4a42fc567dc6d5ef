import GoEtl.Library.Replace
import GoEtl.Model.DataNames
import GoEtl.Text.Shell

/-!
# Worker scripts

`cmd/controller/slurm_worker_script.go` and the part of `bash_shell_platform.go` that it uses: the script that starts a
worker under Slurm. The job name, the time limit and the log directory stand in comments, without quotes; the log
directory, the executable and its arguments stand in commands, quoted.

A text is a list of characters. The bytes of a Go string are such a list as well, of the characters with the same
numbers: nothing here depends on characters beyond ASCII.

The shell reads the script as the comments and three commands, whatever the values are (`script_runs_three_commands`).
-/

namespace GoEtl.Controller

open Library Model Text Text.Shell

/-- `ShellDialect`, which has one implementation. -/
inductive ShellDialect where
  /-- `BashShellPlatform`. -/
  | bash
  deriving DecidableEq, Repr

/-- `containsNewline`. -/
def containsNewline (value : Chars) : Bool := hasAny ['\r', '\n'] value

/-- `containsNewlineInList`. -/
def containsNewlineInList (values : List Chars) : Bool := values.any containsNewline

namespace ShellDialect

/-- `Newline`. -/
def newline : ShellDialect → Chars
  | bash => ['\n']

/-- `QuoteArg`. -/
def quoteArg : ShellDialect → Chars → Chars
  | bash, value =>
    single :: replaceAll [single] [single, double, single, double, single] value
      ++ [single]

/-- `LocalizePath`. -/
def localizePath : ShellDialect → Chars → Except String Chars
  | bash, value => do
    refuse (value = []) "path is required"
    refuse (containsNewline value) "path must not contain newlines"
    pure value

end ShellDialect

/-- `SlurmWorkerScriptConfig`. -/
structure SlurmWorkerScriptConfig where
  jobName : Chars
  memoryMb : ℤ
  timeLimit : Chars
  workerExecutable : Chars
  workerArgs : List Chars
  workerConfigPath : Chars
  logDir : Chars
  platform : Option ShellDialect
  deriving DecidableEq, Repr

/-- `shellCommandWithPlatform`. -/
def shellCommandWithPlatform (platform : ShellDialect) (args : List Chars) : Chars :=
  [' '].intercalate (args.map platform.quoteArg)

namespace SlurmWorkerScriptConfig

/-- `validate`. -/
def validate (cfg : SlurmWorkerScriptConfig) : Except String Unit := do
  refuse (cfg.jobName = []) "slurm job name is required"
  refuse (cfg.memoryMb < 0) "slurm memory mb must not be negative"
  refuse (hasAny [' ', '\t', '\r', '\n'] cfg.timeLimit) "slurm time limit must not contain whitespace"
  refuse (hasAny [' ', '\t', '\r', '\n', '/'] cfg.jobName)
    "slurm job name must not contain whitespace or path separators"
  refuse (cfg.workerExecutable = []) "worker executable is required"
  refuse (cfg.workerConfigPath = []) "worker config path is required"
  refuse (cfg.logDir = []) "log dir is required"
  refuse (containsNewline cfg.workerExecutable || containsNewline cfg.workerConfigPath || containsNewline cfg.logDir ||
      containsNewlineInList cfg.workerArgs)
    "slurm script values must not contain newlines"

/-- `slurmScriptPlatform`. -/
def slurmScriptPlatform (cfg : SlurmWorkerScriptConfig) : ShellDialect := cfg.platform.getD .bash

end SlurmWorkerScriptConfig

open SlurmWorkerScriptConfig

/-- The text that `GenerateSlurmWorkerScript` writes. -/
def slurmWorkerScript (cfg : SlurmWorkerScriptConfig) (platform : ShellDialect)
    (workerExecutable workerConfigPath logDir : Chars) : Chars :=
  let newline := platform.newline
  chars "#!/usr/bin/env bash" ++ newline
    ++ (chars "#SBATCH --job-name=" ++ cfg.jobName ++ newline)
    ++ (if cfg.memoryMb > 0 then chars "#SBATCH --mem=" ++ itoa cfg.memoryMb ++ chars "M" ++ newline else [])
    ++ (if cfg.timeLimit ≠ [] then chars "#SBATCH --time=" ++ cfg.timeLimit ++ newline else [])
    ++ (chars "#SBATCH --output=" ++ logDir ++ chars "/%x-%j.out" ++ newline)
    ++ (chars "#SBATCH --error=" ++ logDir ++ chars "/%x-%j.err" ++ newline)
    ++ (chars "set -euo pipefail" ++ newline)
    ++ (chars "mkdir -p " ++ platform.quoteArg logDir ++ newline)
    ++ (shellCommandWithPlatform platform (workerExecutable :: (cfg.workerArgs ++ [workerConfigPath])) ++ newline)

/-- `GenerateSlurmWorkerScript`. -/
def generateSlurmWorkerScript (cfg : SlurmWorkerScriptConfig) : Except String Chars := do
  cfg.validate
  let platform := cfg.slurmScriptPlatform
  let workerExecutable ← (platform.localizePath cfg.workerExecutable).mapError ("worker executable: " ++ ·)
  let workerConfigPath ← (platform.localizePath cfg.workerConfigPath).mapError ("worker config path: " ++ ·)
  let logDir ← (platform.localizePath cfg.logDir).mapError ("log dir: " ++ ·)
  pure (slurmWorkerScript cfg platform workerExecutable workerConfigPath logDir)

/-! ### What the script should be -/

/-- The comments of the script, without the number sign. -/
def SlurmWorkerScriptConfig.comments (cfg : SlurmWorkerScriptConfig) : List Chars :=
  [chars "!/usr/bin/env bash", chars "SBATCH --job-name=" ++ cfg.jobName]
    ++ (if cfg.memoryMb > 0 then [chars "SBATCH --mem=" ++ itoa cfg.memoryMb ++ chars "M"] else [])
    ++ (if cfg.timeLimit ≠ [] then [chars "SBATCH --time=" ++ cfg.timeLimit] else [])
    ++ [chars "SBATCH --output=" ++ cfg.logDir ++ chars "/%x-%j.out",
      chars "SBATCH --error=" ++ cfg.logDir ++ chars "/%x-%j.err"]

/-- A word that stands in the script as it is. -/
def plainWord (text : String) : Token := .word ((chars text).map .plain)

/-- A word all of whose characters are quoted. -/
def quotedWord (text : Chars) : Token := .word (text.map .quoted)

/-- The executable and its arguments. -/
def SlurmWorkerScriptConfig.workerCommand (cfg : SlurmWorkerScriptConfig) : List Chars :=
  cfg.workerExecutable :: (cfg.workerArgs ++ [cfg.workerConfigPath])

/-- What an accepted configuration is. -/
structure SlurmWorkerScriptConfig.Valid (cfg : SlurmWorkerScriptConfig) : Prop where
  paths : ∀ value ∈ [cfg.workerExecutable, cfg.workerConfigPath, cfg.logDir], value ≠ [] ∧ ¬containsNewline value
  timeLimit : '\n' ∉ cfg.timeLimit
  jobName : '\n' ∉ cfg.jobName
  lines : ∀ value ∈ cfg.logDir :: cfg.workerCommand, '\n' ∉ value

variable {cfg : SlurmWorkerScriptConfig}

theorem SlurmWorkerScriptConfig.valid_of_validate (h : cfg.validate = .ok ()) : cfg.Valid := by
  simp only [validate, refuse_bind_ok, refuse_ok, Bool.or_eq_true, not_or, containsNewlineInList, List.any_eq_true,
    not_exists, not_and] at h
  obtain ⟨_, _, htime, hname, hexecutable, hconfig, hlogDir, ⟨⟨hexecutable', hconfig'⟩, hlogDir'⟩, hargs⟩ := h
  have hline : ∀ set : Chars, '\n' ∈ set → ∀ text, ¬hasAny set text = true → '\n' ∉ text := by
    intro set hset text hany htext
    exact hany (List.any_eq_true.2 ⟨_, htext, by simpa using hset⟩)
  have hvalue := hline ['\r', '\n'] (by decide)
  refine ⟨?_, hline _ (by decide) _ htime, hline _ (by decide) _ hname, ?_⟩
  · simp [hexecutable, hconfig, hlogDir, hexecutable', hconfig', hlogDir']
  · intro value hmem
    simp only [workerCommand, List.mem_cons, List.mem_append, List.not_mem_nil, or_false] at hmem
    rcases hmem with rfl | rfl | hmem | rfl
    · exact hvalue _ hlogDir'
    · exact hvalue _ hexecutable'
    · exact hvalue _ (hargs value hmem)
    · exact hvalue _ hconfig'

/-- The three commands. -/
def SlurmWorkerScriptConfig.commands (cfg : SlurmWorkerScriptConfig) : List (List Token) :=
  [[plainWord "set", plainWord "-euo", plainWord "pipefail"], [plainWord "mkdir", plainWord "-p", quotedWord cfg.logDir],
    cfg.workerCommand.map quotedWord]

/-! ### The script as the shell reads it -/

/-- A comment and the end of its line. -/
def commentLine (text : Chars) : Chars := '#' :: (text ++ ['\n'])

/-- `QuoteArg` writes its value character by character. -/
theorem quoteArg_eq (platform : ShellDialect) (value : Chars) :
    platform.quoteArg value = single :: value.flatMap quoteChar ++ [single] := by
  have hreplace : ∀ text : Chars, replaceAll [single]
      [single, double, single, double, single] text = text.flatMap quoteChar := by
    intro text
    induction text with
    | nil => rfl
    | cons c text ih =>
      rw [List.flatMap_cons, ← ih, quoteChar]
      split_ifs with hc
      · exact hc ▸ replaceAll_append (List.cons_ne_nil _ _) text
      · have hpass : ∀ i < [c].length, ¬[single] <+: [c].drop i ++ text := by
          intro i hi
          simpa [Nat.lt_one_iff.1 hi] using Ne.symm hc
        exact replaceAll_pass [c] hpass
  cases platform
  rw [ShellDialect.quoteArg, hreplace]

/-- An accepted configuration has a script. -/
theorem generateSlurmWorkerScript_ok (h : cfg.validate = .ok ()) :
    generateSlurmWorkerScript cfg = .ok (slurmWorkerScript cfg cfg.slurmScriptPlatform cfg.workerExecutable
      cfg.workerConfigPath cfg.logDir) := by
  have hpath : ∀ value ∈ [cfg.workerExecutable, cfg.workerConfigPath, cfg.logDir],
      cfg.slurmScriptPlatform.localizePath value = .ok value := by
    intro value hmem
    obtain ⟨hvalue, hline⟩ := (valid_of_validate h).paths value hmem
    cases cfg.slurmScriptPlatform
    rw [ShellDialect.localizePath, refuse_ok.2 hvalue, refuse_ok.2 hline]
    rfl
  simp only [List.forall_mem_cons] at hpath
  simp only [generateSlurmWorkerScript, h, hpath.1, hpath.2.1, hpath.2.2.1, Except.mapError]
  rfl

/-- The script, line by line. -/
theorem slurmWorkerScript_eq (cfg : SlurmWorkerScriptConfig) (platform : ShellDialect) :
    slurmWorkerScript cfg platform cfg.workerExecutable cfg.workerConfigPath cfg.logDir =
      cfg.comments.flatMap commentLine ++ (chars "set -euo pipefail" ++ ['\n']
        ++ (chars "mkdir -p " ++ (platform.quoteArg cfg.logDir ++ ['\n'])
        ++ (shellCommandWithPlatform platform cfg.workerCommand ++ ['\n']))) := by
  have hsign : ∀ text : String, '#' :: chars text = chars ("#" ++ text) := by simp [chars]
  cases platform
  simp only [slurmWorkerScript, comments, ShellDialect.newline, workerCommand]
  split_ifs <;>
    simp only [List.flatMap_append, List.flatMap_cons, List.flatMap_nil, commentLine, List.append_assoc,
      List.append_nil, ← List.cons_append, hsign] <;> rfl

/-- The comments are read as comments. -/
theorem steps_comments {texts : List Chars} (h : ∀ text ∈ texts, '\n' ∉ text) :
    steps .blank (texts.flatMap commentLine) =
      (texts.flatMap fun text => [.comment text, .newline], .blank) := by
  induction texts with
  | nil => rfl
  | cons text texts ih =>
    rw [List.forall_mem_cons] at h
    have hsign : step .blank '#' = ([], .comment []) := rfl
    exact steps_append (steps_cons hsign (steps_comment [] h.1)) (ih h.2)

/-- A quoted argument and a character that ends it are read as one word. -/
theorem steps_quoteArg (platform : ShellDialect) (arg : Chars) {c : Char} {tokens : List Token}
    (hend : delimiter c = some tokens) :
    steps .blank (platform.quoteArg arg ++ [c]) = (quotedWord arg :: tokens, .blank) := by
  rw [quoteArg_eq, List.append_assoc]
  exact steps_quoted arg hend

/-- A quoted command is read as its words. -/
theorem steps_shellCommand (platform : ShellDialect) (arg : Chars) (args : List Chars) :
    steps .blank (shellCommandWithPlatform platform (arg :: args) ++ ['\n']) =
      ((arg :: args).map quotedWord ++ [.newline], .blank) := by
  have hnewline : delimiter '\n' = some [.newline] := rfl
  have hblank : delimiter ' ' = some [] := rfl
  induction args generalizing arg with
  | nil => simpa [shellCommandWithPlatform] using steps_quoteArg platform arg hnewline
  | cons next args ih =>
    have hall := steps_append (steps_quoteArg platform arg hblank) (ih next)
    simpa [shellCommandWithPlatform, List.intercalate] using hall

/-- The first lines of the script are its comments. -/
theorem lines_comments (texts : List Chars) (rest : List Token) :
    lines ((texts.flatMap fun text => [.comment text, .newline]) ++ rest) =
      texts.map (fun text => [.comment text]) ++ lines rest := by
  induction texts with
  | nil => rfl
  | cons text texts ih =>
    have hline : Token.newline ∉ [Token.comment text] := by simp
    rw [List.map_cons, List.cons_append, ← ih]
    exact lines_append hline

/-! ### No value adds a line -/

theorem not_mem_itoa (n : ℤ) : '\n' ∉ itoa n := by
  have hdigits : ∀ m : ℕ, '\n' ∉ Nat.toDigits 10 m := fun m hmem =>
    absurd (Nat.isDigit_of_mem_toDigits (by decide) (by decide) hmem) (by decide)
  cases n with
  | ofNat n => exact hdigits n
  | negSucc n => exact List.not_mem_cons_of_ne_of_not_mem (by decide) (hdigits _)

/-- No comment has a line break in it. -/
theorem SlurmWorkerScriptConfig.Valid.comments (h : cfg.Valid) : ∀ text ∈ cfg.comments, '\n' ∉ text := by
  have hlogDir := h.lines _ List.mem_cons_self
  simp only [SlurmWorkerScriptConfig.comments]
  split_ifs <;> simp [chars, hlogDir, h.jobName, h.timeLimit, not_mem_itoa]

/-- **A worker script runs three commands**, and none of their words breaks a line. -/
theorem script_runs_three_commands (cfg : SlurmWorkerScriptConfig) (h : cfg.validate = .ok ()) :
    ∃ script, generateSlurmWorkerScript cfg = .ok script ∧
      (read script).map lines = some (cfg.comments.map (fun text => [.comment text]) ++ cfg.commands) ∧
      ∀ value ∈ cfg.logDir :: cfg.workerCommand, '\n' ∉ value := by
  have hvalid := valid_of_validate h
  have hset : steps .blank (chars "set -euo pipefail" ++ ['\n']) =
    ([plainWord "set", plainWord "-euo", plainWord "pipefail", .newline], .blank) := by decide
  have hmkdir : steps .blank (chars "mkdir -p ") = ([plainWord "mkdir", plainWord "-p"], .blank) := by decide
  have hlogDir := steps_quoteArg cfg.slurmScriptPlatform cfg.logDir (show delimiter '\n' = some [.newline] from rfl)
  have hworker := steps_shellCommand cfg.slurmScriptPlatform cfg.workerExecutable
    (cfg.workerArgs ++ [cfg.workerConfigPath])
  have hall := steps_append (steps_comments hvalid.comments)
    (steps_append hset (steps_append (steps_append hmkdir hlogDir) hworker))
  have hfirst : Token.newline ∉ [plainWord "set", plainWord "-euo", plainWord "pipefail"] := by simp [plainWord]
  have hsecond : Token.newline ∉ [plainWord "mkdir", plainWord "-p", quotedWord cfg.logDir] := by
    simp [plainWord, quotedWord]
  have hthird : Token.newline ∉ cfg.workerCommand.map quotedWord := by simp [quotedWord]
  refine ⟨_, generateSlurmWorkerScript_ok h, ?_, hvalid.lines⟩
  rw [slurmWorkerScript_eq]
  refine (congrArg (Option.map lines) (read_eq hall)).trans ?_
  rw [Option.map_some, lines_comments]
  refine congrArg (fun rest => some (_ ++ rest)) ((lines_append hfirst).trans (congrArg _ ?_))
  exact (lines_append hsecond).trans (congrArg _ (lines_append hthird))

namespace Sample

/-- A configuration whose values have quotes, blanks and an expansion in them. -/
def quoting : SlurmWorkerScriptConfig where
  jobName := chars "goetl"
  memoryMb := 512
  timeLimit := []
  workerExecutable := chars "/opt/my worker"
  workerArgs := [chars "$(reboot)", ['a', single, ';'], []]
  workerConfigPath := chars "worker.json"
  logDir := chars "logs; reboot"
  platform := none

theorem quoting_runs : quoting.validate = .ok () ∧
    ∃ script, generateSlurmWorkerScript quoting = .ok script ∧
      (read script).map lines =
        some (quoting.comments.map (fun text => [.comment text]) ++ quoting.commands) ∧
      ∀ value ∈ quoting.logDir :: quoting.workerCommand, '\n' ∉ value :=
  ⟨by decide, script_runs_three_commands quoting (by decide)⟩

end Sample

end GoEtl.Controller
