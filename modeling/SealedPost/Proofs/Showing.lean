import Mathlib.Data.List.Nodup
import SealedPost.Cipher.Transparent
import SealedPost.Desktop
import SealedPost.Link.Scripted
import SealedPost.Proofs.Decimal
import SealedPost.Proofs.Files

/-! Showing a batch of messages: a block for each, and a file under its own number for each one that can be saved. -/
namespace SealedPost

namespace Desktop

variable {w α β : Type}

def print (d : Desktop) (line : String) : Desktop :=
  { d with printed := d.printed ++ [line] }

def Runs (act : StateT Desktop (StateM w) α) (d : Desktop) (y : w) (a : α) (d' : Desktop) (y' : w) : Prop :=
  (act.run d).run y = ((a, d'), y')

theorem Runs.bind {act : StateT Desktop (StateM w) α} {next : α → StateT Desktop (StateM w) β} {d d' d'' : Desktop}
    {y y' y'' : w} {a : α} {b : β} (h : Runs act d y a d' y') (hn : Runs (next a) d' y' b d'' y'') :
    Runs (act >>= next) d y b d'' y'' := by
  have hrun : ((act >>= next).run d).run y =
      ((next ((act.run d).run y).1.1).run ((act.run d).run y).1.2).run ((act.run d).run y).2 := rfl
  rw [Runs, hrun, h]
  exact hn

end Desktop

open Desktop (Runs)

/-- A terminal on a desktop, which may refuse to write a file for any reason. What is said is printed, a file that is
written is in its place afterwards, and after a write that is refused all is as before. -/
structure Terminal.OnDesktop {w : Type} (terminal : Terminal (StateT Desktop (StateM w))) : Prop where
  prints (line : String) (d : Desktop) (y : w) :
    ∃ y', Runs (terminal.say line) d y () (d.print line) y'
  writes (path : String) (contents : Bytes) (d : Desktop) (y : w) :
    (∃ after y', d.files.write path contents = (.ok (), after) ∧
      Runs (terminal.writeFile path contents) d y (.ok ()) { d with files := after } y') ∨
    ∃ fault y', Runs (terminal.writeFile path contents) d y (.error fault) d y'

theorem Desktop.onDesktop_terminal {w : Type} (env : Surroundings (StateM w)) : (terminal env).OnDesktop where
  prints line d y := ⟨y, rfl⟩
  writes path contents d y := by
    have hrun : Runs ((terminal env).writeFile path contents) d y _ (d.write path contents).2 y := rfl
    rw [Desktop.write] at hrun
    rcases hwrite : d.files.write path contents with ⟨_ | _, after⟩ <;> rw [hwrite] at hrun
    · obtain rfl := FileStore.eq_of_write_error hwrite
      exact .inr ⟨_, y, hrun⟩
    · exact .inl ⟨after, y, rfl, hrun⟩

/-- What a terminal was asked for: to print a line, or to write a file, with what came of it. -/
inductive Terminal.Call where
  | said (line : String)
  | wrote (path : String) (contents : Bytes) (outcome : Except FileFault Unit)

/-- The calls of a terminal, one after the other, lead from one desktop and world to another. -/
inductive Terminal.Calls {w : Type} (terminal : Terminal (StateT Desktop (StateM w))) :
    Desktop → w → List Terminal.Call → Desktop → w → Prop
  | none {d : Desktop} {y : w} : Calls terminal d y [] d y
  | said {d d' d'' : Desktop} {y y' y'' : w} {line : String} {more : List Terminal.Call}
      (call : Runs (terminal.say line) d y () d' y') (later : Calls terminal d' y' more d'' y'') :
      Calls terminal d y (.said line :: more) d'' y''
  | wrote {d d' d'' : Desktop} {y y' y'' : w} {path : String} {contents : Bytes} {outcome : Except FileFault Unit}
      {more : List Terminal.Call} (call : Runs (terminal.writeFile path contents) d y outcome d' y')
      (later : Calls terminal d' y' more d'' y'') :
      Calls terminal d y (.wrote path contents outcome :: more) d'' y''

theorem Terminal.Calls.append {w : Type} {terminal : Terminal (StateT Desktop (StateM w))} {d d' d'' : Desktop}
    {y y' y'' : w} {calls more : List Terminal.Call} (h : terminal.Calls d y calls d' y')
    (later : terminal.Calls d' y' more d'' y'') : terminal.Calls d y (calls ++ more) d'' y'' := by
  induction h with
  | none => exact later
  | said call _ ih => exact .said call (ih later)
  | wrote call _ ih => exact .wrote call (ih later)

namespace Menu

def fileName (messageId : UInt32) : String :=
  "received_" ++ Decimal.text messageId.toNat ++ ".bin"

private theorem toList_fileName (messageId : UInt32) :
    (fileName messageId).toList = "received_".toList ++ Decimal.digits messageId.toNat ++ ".bin".toList := by
  simp [fileName, Decimal.text]

theorem isName_fileName (messageId : UInt32) : FileStore.IsName (fileName messageId) := by
  have first : (fileName messageId).toList.head? = some 'r' := by
    rw [toList_fileName]
    rfl
  have other {name : String} (h : name.toList.head? ≠ some 'r') : fileName messageId ≠ name :=
    fun hsame => h (hsame ▸ first)
  refine ⟨fun hslash => ?_, other (by decide), other (by decide), other (by decide)⟩
  rw [toList_fileName, List.mem_append, List.mem_append] at hslash
  rcases hslash with (hslash | hslash) | hslash
  · exact absurd hslash (by decide)
  · exact absurd (Decimal.isDigit_of_mem_digits hslash) (by decide)
  · exact absurd hslash (by decide)

/-- The directory for downloads has no link under the name of a file of these messages. -/
def Unlinked (config : Config) (files : FileStore) (messages : List ReceivedMessage) : Prop :=
  ∀ directory, files.folder config.downloads = .ok directory →
    ∀ m ∈ messages, files.links.lookup (fileName m.messageId :: directory) = none

section place

variable {config : Config} {files : FileStore} {messages : List ReceivedMessage} {m m' : ReceivedMessage}

/-- Where there is no link, a file is in the directory for downloads under its own name. -/
theorem Unlinked.place {place : Place} (unlinked : Unlinked config files messages) (hm : m ∈ messages)
    (h : files.locate (downloadPath config m.messageId) = .ok place) :
    ∃ directory, files.folder config.downloads = .ok directory ∧ fileName m.messageId :: directory = place := by
  obtain ⟨directory, hfolder, hstep⟩ := FileStore.locate_join (isName_fileName m.messageId) h
  rw [(isName_fileName m.messageId).step (unlinked directory hfolder m hm)] at hstep
  exact ⟨directory, hfolder, Except.ok.inj hstep⟩

end place

def fileLine (config : Config) (messageId : UInt32) : Except FileFault Unit → String
  | .ok _ => downloadPath config messageId
  | .error fault => "[Failed to save file: " ++ fault.message ++ "]"

/-- A message that was shown, and what came of writing its file if it is one. -/
structure Shown where
  message : ReceivedMessage
  outcome : Except FileFault Unit

namespace Shown

variable (config : Config) (shown : Shown)

def content : String :=
  match shown.message.outcome with
  | .keyRequested => "Request for symmetric key"
  | .keyEstablished => "symmetric key received"
  | .keyRejected reason => "can't decrypt symmetric key (" ++ reason.message ++ ")"
  | .text text => text
  | .file _ => fileLine config shown.message.messageId shown.outcome
  | .undecryptable _ _ => "can't decrypt message"
  | .noKey _ => "can't decrypt message (no symmetric key)"
  | .unknown content => "unknown message type, " ++ Decimal.text content.length ++ " bytes"

def block : List String :=
  ["From: " ++ shown.message.senderName.getD shown.message.sender.hex, "Content:", shown.content config,
    "-----<EOM>-----", ""]

def writes : List Terminal.Call :=
  match shown.message.outcome with
  | .file contents => [.wrote (downloadPath config shown.message.messageId) contents shown.outcome]
  | _ => []

/-- All that the terminal is asked for: a file is written after the head of its block. -/
def calls : List Terminal.Call :=
  ((shown.block config).take 2).map .said ++ shown.writes config ++ ((shown.block config).drop 2).map .said

def file? : Option (String × Bytes) :=
  match shown.message.outcome, shown.outcome with
  | .file contents, .ok _ => some (downloadPath config shown.message.messageId, contents)
  | _, _ => none

end Shown

def savedFiles (config : Config) (shown : List Shown) : List (String × Bytes) :=
  shown.filterMap (·.file? config)

section saved

variable {config : Config} {s s' : Shown} {shown : List Shown} {file : String × Bytes}

theorem Shown.file?_eq_some_iff : s.file? config = some file ↔
    s.message.outcome = .file file.2 ∧ s.outcome = .ok () ∧ downloadPath config s.message.messageId = file.1 := by
  obtain ⟨⟨id, sender, senderName, kind, outcome⟩, _ | _⟩ := s <;> obtain ⟨path, contents⟩ := file <;>
    cases outcome <;> simp [Shown.file?, and_comm]

theorem mem_savedFiles_iff : file ∈ savedFiles config shown ↔ ∃ s ∈ shown, s.file? config = some file :=
  List.mem_filterMap

end saved

def afterShowing (config : Config) (d : Desktop) (shown : List Shown) : Desktop :=
  { d with
    printed := d.printed ++ shown.flatMap (·.block config)
    files := d.files.writeAll (savedFiles config shown) }

theorem afterShowing_nil (config : Config) (d : Desktop) : afterShowing config d [] = d := by
  rw [afterShowing, List.flatMap_nil, List.append_nil]
  rfl

theorem afterShowing_append (config : Config) (d : Desktop) (shown more : List Shown) :
    afterShowing config d (shown ++ more) = afterShowing config (afterShowing config d shown) more := by
  simp only [afterShowing, savedFiles, List.flatMap_append, List.filterMap_append, FileStore.writeAll_append,
    List.append_assoc]

section run

variable {w : Type} {terminal : Terminal (StateT Desktop (StateM w))} (onDesktop : terminal.OnDesktop) (config : Config)
  (d : Desktop) (y : w)

include onDesktop

/-- What is said of a message, and the write that is made for it. -/
theorem runs_contentLine (message : ReceivedMessage) :
    ∃ (shown : Shown) (y' : w), shown.message = message ∧
      Runs (contentLine terminal config message) d y (shown.content config)
        { d with files := d.files.writeAll (savedFiles config [shown]) } y' ∧
      terminal.Calls d y (shown.writes config) { d with files := d.files.writeAll (savedFiles config [shown]) } y' ∧
      ∀ file, shown.file? config = some file → d.files.Takes file.1 := by
  obtain ⟨id, sender, senderName, kind, outcome⟩ := message
  cases outcome with
  | file contents =>
    rcases onDesktop.writes (downloadPath config id) contents d y with ⟨after, y', hafter, hwrite⟩ | ⟨fault, y', hwrite⟩
    · obtain ⟨place, hplace, hfile, -⟩ := FileStore.write_eq_ok_iff.1 hafter
      obtain rfl : (d.files.write (downloadPath config id) contents).2 = after := congrArg Prod.snd hafter
      refine ⟨⟨_, .ok ()⟩, y', rfl, hwrite.bind rfl, .wrote hwrite .none, fun file hsaved => ?_⟩
      rw [← (Shown.file?_eq_some_iff.1 hsaved).2.2]
      exact ⟨place, hplace, hfile⟩
    · exact ⟨⟨_, .error fault⟩, y', rfl, hwrite.bind rfl, .wrote hwrite .none, nofun⟩
  | _ => exact ⟨⟨_, .ok ()⟩, y, rfl, rfl, .none, nofun⟩

theorem runs_showMessage (message : ReceivedMessage) :
    ∃ (shown : Shown) (y' : w), shown.message = message ∧
      Runs (showMessage terminal config message) d y () (afterShowing config d [shown]) y' ∧
      terminal.Calls d y (shown.calls config) (afterShowing config d [shown]) y' ∧
      ∀ file, shown.file? config = some file → d.files.Takes file.1 := by
  let sender := "From: " ++ message.senderName.getD message.sender.hex
  let opened := (d.print sender).print "Content:"
  obtain ⟨y₁, hfrom⟩ := onDesktop.prints sender d y
  obtain ⟨y₂, hhead⟩ := onDesktop.prints "Content:" (d.print sender) y₁
  obtain ⟨shown, y₃, rfl, hcontent, hwrites, htakes⟩ := runs_contentLine onDesktop config opened y₂ message
  let saved := { opened with files := d.files.writeAll (savedFiles config [shown]) }
  obtain ⟨y₄, hline⟩ := onDesktop.prints (shown.content config) saved y₃
  obtain ⟨y₅, hend⟩ := onDesktop.prints "-----<EOM>-----" (saved.print (shown.content config)) y₄
  obtain ⟨y₆, hblank⟩ := onDesktop.prints "" ((saved.print (shown.content config)).print "-----<EOM>-----") y₅
  have hafter : ((saved.print (shown.content config)).print "-----<EOM>-----").print "" =
      afterShowing config d [shown] := by
    simp [saved, opened, sender, Desktop.print, afterShowing, Shown.block]
  rw [hafter] at hblank
  have hrun : Runs (showMessage terminal config shown.message) d y () _ y₆ :=
    hfrom.bind (hhead.bind (hcontent.bind (hline.bind (hend.bind hblank))))
  have hcalls : terminal.Calls d y (shown.calls config) _ y₆ :=
    .said hfrom (.said hhead (hwrites.append (.said hline (.said hend (.said hblank .none)))))
  exact ⟨shown, y₆, rfl, hrun, hcalls, htakes⟩

/-- By induction on the batch; later writes leave the paths where they lead. -/
theorem runs_showMessages (messages : List ReceivedMessage) :
    ∃ (shown : List Shown) (y' : w), shown.map (·.message) = messages ∧
      Runs (showMessages terminal config messages) d y () (afterShowing config d shown) y' ∧
      terminal.Calls d y (shown.flatMap (·.calls config)) (afterShowing config d shown) y' ∧
      ∀ file ∈ savedFiles config shown, d.files.Takes file.1 := by
  induction messages generalizing d y with
  | nil => exact ⟨[], y, rfl, by rw [afterShowing_nil]; rfl, by rw [afterShowing_nil]; exact .none, nofun⟩
  | cons message messages ih =>
    obtain ⟨first, y₁, rfl, hfirst, hcalls, htakes⟩ := runs_showMessage onDesktop config d y message
    obtain ⟨shown, y₂, rfl, hrest, hmore, hall⟩ := ih (afterShowing config d [first]) y₁
    rw [← afterShowing_append] at hrest hmore
    refine ⟨first :: shown, y₂, rfl, hfirst.bind hrest, hcalls.append hmore, fun file hfile => ?_⟩
    obtain ⟨s, hs, hsaved⟩ := mem_savedFiles_iff.1 hfile
    rcases List.mem_cons.1 hs with rfl | hs
    · exact htakes file hsaved
    · exact FileStore.takes_writeAll_iff.1 (hall file (mem_savedFiles_iff.2 ⟨s, hs, hsaved⟩))

end run

end Menu

end SealedPost
