import ClusterScaler.Proofs.Exposition.Scraping
import ClusterScaler.Proofs.Pool.Identity
import ClusterScaler.Proofs.Program.Protocol
import ClusterScaler.Provider.Ssh

/-!
# One remote shell for commands and for copies

A command starts the remote shell with its options as arguments of their own. A copy names the same
shell in one line, which the copying program divides again at the spaces. Joining and dividing gives
the words back that have characters and no space (`wordsAtSpaces_intercalate_iff`). The options are such
words, but for the path of the private key, of which nobody asks it. So commands and copies go over the
same shell exactly if the path of the key is such a word too (`SshConnection.same_shell_iff`).
-/

set_option autoImplicit false

namespace ClusterScaler

namespace Shell

/-- A text that has none of the characters that keep spaces together. -/
def QuoteFree (s : String) : Prop := '\'' ∉ s.toList ∧ '"' ∉ s.toList

instance (s : String) : Decidable (QuoteFree s) := inferInstanceAs (Decidable (_ ∧ _))

/-- The words of a line, between which there are spaces and nothing else. -/
def wordsAtSpaces (line : String) : List String :=
  ((line.toList.splitOn ' ').filter (· ≠ [])).map String.ofList

/-- A text that is a word of its own: it has characters, and no space. -/
def IsWord (s : String) : Prop := s ≠ "" ∧ ' ' ∉ s.toList

instance (s : String) : Decidable (IsWord s) := inferInstanceAs (Decidable (_ ∧ _))

/-- What is divided at a character does not hold it. -/
theorem notMem_of_mem_splitOn {c : Char} {cs w : List Char} (h : w ∈ cs.splitOn c) : c ∉ w := by
  induction cs generalizing w with
  | nil =>
    have hw : w = [] := by simpa using h
    rw [hw]
    exact List.not_mem_nil
  | cons d cs ih =>
    rw [List.splitOn_cons_eq_if_modifyHead] at h
    split at h
    · rcases List.mem_cons.mp h with rfl | hrest
      · exact List.not_mem_nil
      · exact ih hrest
    · next hd =>
      -- the first piece has the character in front, the others are the same
      cases hpieces : cs.splitOn c with
      | nil => exact absurd hpieces (List.splitOn_ne_nil c cs)
      | cons first rest =>
        rw [hpieces, List.modifyHead_cons] at h
        rcases List.mem_cons.mp h with rfl | hrest
        · have hfirst : c ∉ first := ih (hpieces ▸ List.mem_cons_self)
          have hne : c ≠ d := fun heq => hd (beq_iff_eq.mpr heq.symm)
          exact fun hmem => (List.mem_cons.mp hmem).elim hne hfirst
        · exact ih (hpieces ▸ List.mem_cons_of_mem _ hrest)

theorem isWord_of_mem_wordsAtSpaces {line w : String} (h : w ∈ wordsAtSpaces line) : IsWord w := by
  obtain ⟨cs, hcs, rfl⟩ := List.mem_map.mp h
  obtain ⟨hpiece, hne⟩ := List.mem_filter.mp hcs
  refine ⟨?_, ?_⟩
  · intro hempty
    have hnil : cs = [] := by simpa using congrArg String.toList hempty
    exact of_decide_eq_true hne hnil
  · rw [String.toList_ofList]
    exact notMem_of_mem_splitOn hpiece

/-- Texts that are joined with spaces are the words of the line exactly if each of them is a word. -/
theorem wordsAtSpaces_intercalate_iff {texts : List String} :
    wordsAtSpaces (String.intercalate " " texts) = texts ↔ ∀ text ∈ texts, IsWord text := by
  constructor
  · intro h text htext
    rw [← h] at htext
    exact isWord_of_mem_wordsAtSpaces htext
  · intro hwords
    cases texts with
    | nil => rfl
    | cons text rest =>
      have hjoined : (String.intercalate " " (text :: rest)).toList =
          [' '].intercalate ((text :: rest).map String.toList) := String.toList_intercalate ..
      have hspace : ∀ cs ∈ (text :: rest).map String.toList, ' ' ∉ cs := by
        intro cs hcs
        obtain ⟨w, hw, rfl⟩ := List.mem_map.mp hcs
        exact (hwords w hw).2
      have hne : ∀ cs ∈ (text :: rest).map String.toList, decide (cs ≠ []) = true := by
        intro cs hcs
        obtain ⟨w, hw, rfl⟩ := List.mem_map.mp hcs
        exact decide_eq_true (mt String.toList_eq_nil_iff.mp (hwords w hw).1)
      have hpieces := List.splitOn_intercalate ' ' hspace (List.cons_ne_nil _ _)
      unfold wordsAtSpaces
      rw [hjoined, hpieces, List.filter_eq_self.mpr hne, List.map_map]
      simp

theorem quoteFree_intercalate {texts : List String} (h : ∀ text ∈ texts, QuoteFree text) :
    QuoteFree (String.intercalate " " texts) := by
  have hchar : ∀ c, c ≠ ' ' → (∀ text ∈ texts, c ∉ text.toList) →
      c ∉ (String.intercalate " " texts).toList := by
    intro c hc hnot hmem
    rw [String.toList_intercalate] at hmem
    rcases Exposition.mem_intercalate hmem with hspace | ⟨cs, hcs, hmem⟩
    · exact hc (List.mem_singleton.mp hspace)
    · obtain ⟨text, htext, rfl⟩ := List.mem_map.mp hcs
      exact hnot text htext hmem
  exact ⟨hchar _ (by decide) fun text htext => (h text htext).1,
    hchar _ (by decide) fun text htext => (h text htext).2⟩

end Shell

namespace SshConnection

open Shell

variable {c : SshConnection}

theorem isWord_and_quoteFree_natText (n : Nat) : IsWord (natText n) ∧ QuoteFree (natText n) := by
  have hne : natText n ≠ "" := by
    intro h
    have hnil : Decimal.digits n = [] := by simpa [natText] using congrArg String.toList h
    exact absurd hnil Nat.toDigits_ne_nil
  exact ⟨⟨hne, notMem_natText rfl⟩, notMem_natText rfl, notMem_natText rfl⟩

theorem isWord_and_quoteFree_timeout (n : Nat) :
    IsWord ("ConnectTimeout=" ++ natText n) ∧ QuoteFree ("ConnectTimeout=" ++ natText n) := by
  obtain ⟨⟨-, hspace⟩, hsingle, hdouble⟩ := isWord_and_quoteFree_natText n
  refine ⟨⟨?_, ?_⟩, ?_, ?_⟩
  · intro h
    simpa using congrArg String.toList h
  all_goals simp [hspace, hsingle, hdouble]

/-- Of all the words of the remote shell, only the path of the key may be anything. -/
theorem forall_mem_options_iff {holds : String → Prop}
    (hfixed : ∀ w ∈ ["ssh", "-o", "StrictHostKeyChecking=no", "UserKnownHostsFile=/dev/null",
      "BatchMode=yes", "-p", "-i"], holds w)
    (htimeout : ∀ n, holds ("ConnectTimeout=" ++ natText n)) (hnumber : ∀ n, holds (natText n)) :
    (∀ w ∈ "ssh" :: c.options, holds w) ↔ ∀ key ∈ c.auth.sshPrivateKey, holds key := by
  simp only [List.forall_mem_cons] at hfixed
  obtain ⟨hssh, ho, hstrict, hknown, hbatch, hp, hi, -⟩ := hfixed
  unfold options
  cases c.auth.sshPrivateKey with
  | none => simp [hssh, ho, hstrict, hknown, hbatch, hp, htimeout, hnumber]
  | some key => simp [hssh, ho, hstrict, hknown, hbatch, hp, hi, htimeout, hnumber]

theorem quoteFree_shellWord (h : ∀ key ∈ c.auth.sshPrivateKey, QuoteFree key) :
    QuoteFree c.shellWord :=
  quoteFree_intercalate ((forall_mem_options_iff (by decide)
    (fun n => (isWord_and_quoteFree_timeout n).2)
    fun n => (isWord_and_quoteFree_natText n).2).mpr h)

theorem wordsAtSpaces_shellWord_iff :
    wordsAtSpaces c.shellWord = "ssh" :: c.options ↔
      ∀ key ∈ c.auth.sshPrivateKey, IsWord key :=
  wordsAtSpaces_intercalate_iff.trans (forall_mem_options_iff (by decide)
    (fun n => (isWord_and_quoteFree_timeout n).1) fun n => (isWord_and_quoteFree_natText n).1)

open Program

/-- A command starts one process. -/
theorem meets_run (command : String) :
    (c.run command).Meets (asking (· = c.commandProcess command)) (fun _ _ => True) () := by
  refine ⟨rfl, ?_⟩
  rintro (e | exit) - -
  · trivial
  · trivial

/-- A copy starts the remote shell for the directory, and then the copying program. -/
theorem meets_sync (source target : String) (isDirectory : Bool) :
    (c.sync source target isDirectory).Meets
      (asking fun op => op = c.commandProcess (directoryCommand target) ∨
        op = c.copyProcess source target isDirectory) (fun _ _ => True) () := by
  refine meets_bind.mpr ?_
  refine ⟨.inl rfl, ?_⟩
  rintro (e | made) - -
  · trivial
  · show Meets _ _ (if _ then _ else _) _
    split
    · trivial
    · refine ⟨.inr rfl, ?_⟩
      rintro (e | exit) - -
      · trivial
      · show Meets _ _ (if _ then _ else _) _
        split <;> trivial

/-- Let a program divide its line at the spaces where nothing is quoted. Over one connection, whose
private key has no quotes in its path, the words of the line that a copy passes on are the remote shell
with the options that a command passes to it, exactly if the path of the key is a word of its own. -/
theorem same_shell_iff {divide : String → List String}
    (hdivide : ∀ line, QuoteFree line → divide line = wordsAtSpaces line)
    (hkey : ∀ key ∈ c.auth.sshPrivateKey, QuoteFree key) {command source target : String}
    {isDirectory : Bool} {commandTrace copyTrace : List (Exchange Process Process.Reply)}
    {ran : Except RunnerError CommandOutput} {copied : Except RunnerError Unit}
    (hrun : Runs (c.run command) commandTrace ran)
    (hsync : Runs (c.sync source target isDirectory) copyTrace copied)
    {shell copy : Exchange Process Process.Reply} (hshell : shell ∈ commandTrace)
    (hcopy : copy ∈ copyTrace) (hprogram : copy.op.program = "rsync") :
    ∃ line operands options, copy.op.args = ["-az", "--delete", "-e", line] ++ operands ∧
      shell.op.program = "ssh" ∧ shell.op.args = options ++ [c.destination, command] ∧
      (divide line = "ssh" :: options ↔
        ∀ key ∈ c.auth.sshPrivateKey, key ≠ "" ∧ ' ' ∉ key.toList) := by
  obtain ⟨_, hcommandOp⟩ := (meets_run command).permitted hrun (follows_asking _) shell hshell
  obtain ⟨_, hcopyOp⟩ :=
    (meets_sync source target isDirectory).permitted hsync (follows_asking _) copy hcopy
  have hcommandOp : shell.op = c.commandProcess command := hcommandOp
  have hcopyOp : copy.op = c.copyProcess source target isDirectory := by
    rcases hcopyOp with hmkdir | hcopy
    · rw [hmkdir] at hprogram
      exact absurd hprogram (by decide : "ssh" ≠ "rsync")
    · exact hcopy
  rw [hcommandOp, hcopyOp]
  refine ⟨c.shellWord, _, c.options, rfl, rfl, rfl, ?_⟩
  rw [hdivide _ (quoteFree_shellWord hkey)]
  exact wordsAtSpaces_shellWord_iff

/-- A connection with a key whose path has a space. -/
def spacedKey : SshConnection where
  address := "10.0.0.5"
  auth := { sshUser := "ubuntu", sshPrivateKey := some "/keys/my id" }

theorem spacedKey_quoteFree : ∀ key ∈ spacedKey.auth.sshPrivateKey, QuoteFree key := by
  rintro key ⟨⟩
  decide

theorem command_mem_spacedKey : ⟨spacedKey.commandProcess "uptime", .ok {}⟩ ∈
    ((spacedKey.run "uptime").replay fun _ => .ok {}).1 := .head _

theorem copy_mem_spacedKey : ⟨spacedKey.copyProcess "app" "/srv/app" true, .ok {}⟩ ∈
    ((spacedKey.sync "app" "/srv/app" true).replay fun _ => .ok {}).1 := .tail _ (.head _)

theorem same_shell_iff_spacedKey :
    ∃ shell ∈ ((spacedKey.run "uptime").replay fun _ => .ok {}).1,
    ∃ copy ∈ ((spacedKey.sync "app" "/srv/app" true).replay fun _ => .ok {}).1,
    ∃ line operands options, copy.op.args = ["-az", "--delete", "-e", line] ++ operands ∧
      shell.op.program = "ssh" ∧ shell.op.args = options ++ [spacedKey.destination, "uptime"] ∧
      (wordsAtSpaces line = "ssh" :: options ↔
        ∀ key ∈ spacedKey.auth.sshPrivateKey, key ≠ "" ∧ ' ' ∉ key.toList) :=
  ⟨_, command_mem_spacedKey, _, copy_mem_spacedKey,
    same_shell_iff (fun _ _ => rfl) spacedKey_quoteFree (runs_replay _ _).1 (runs_replay _ _).1
      command_mem_spacedKey copy_mem_spacedKey rfl⟩

/-- The path has no quotes, a command passes it on as it is, and a copy passes on two words. -/
theorem other_shell_spacedKey :
    (∀ key ∈ spacedKey.auth.sshPrivateKey, QuoteFree key) ∧
    ∃ shell ∈ ((spacedKey.run "uptime").replay fun _ => .ok {}).1,
    ∃ copy ∈ ((spacedKey.sync "app" "/srv/app" true).replay fun _ => .ok {}).1,
    ∃ line operands options, copy.op.args = ["-az", "--delete", "-e", line] ++ operands ∧
      shell.op.args = options ++ [spacedKey.destination, "uptime"] ∧
      options.drop 10 = ["-i", "/keys/my id"] ∧
      (wordsAtSpaces line).drop 11 = ["-i", "/keys/my", "id"] ∧
      wordsAtSpaces line ≠ "ssh" :: options := by
  have hwords : (wordsAtSpaces spacedKey.shellWord).drop 11 = ["-i", "/keys/my", "id"] := by
    decide +kernel
  refine ⟨spacedKey_quoteFree, _, command_mem_spacedKey, _, copy_mem_spacedKey, spacedKey.shellWord, _,
    spacedKey.options, rfl, rfl, rfl, hwords, ?_⟩
  intro h
  rw [h] at hwords
  exact absurd hwords (by decide)

end SshConnection

end ClusterScaler
