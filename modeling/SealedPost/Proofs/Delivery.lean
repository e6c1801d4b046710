import SealedPost.Proofs.Cbc
import SealedPost.Proofs.Lanes
import SealedPost.Proofs.Transparency
import SealedPost.Proofs.Utf8

/-! All that one client sends another is opened in order, as long as the keys between them go one way. -/
namespace SealedPost

variable {ι c : Type} [DecidableEq ι] {suite : CipherSuite (StateM c)}

namespace Session

variable {ciphers : Ciphers} {m : QueuedMessage} {key : SymmetricKey}

/-- A text that was sealed under the key that is held comes to itself, also where its content is empty. -/
theorem contentOutcome_text (decrypts : ciphers.Decrypts) (substantial : ciphers.Substantial) {text : String}
    (kind : m.kind = .text) (content : m.content = ciphers.encrypt key (Utf8.encode text)) :
    contentOutcome ciphers (some key) m = .text text := by
  simp only [contentOutcome, kind, content, true_and, if_true]
  split
  · next nothing =>
    have htext := Utf8.decodeLossy_encode text
    rw [substantial key _ nothing] at htext
    rw [← htext]
    rfl
  · rw [decrypts key (Utf8.encode text)]
    exact congrArg Outcome.text (Utf8.decodeLossy_encode text)

theorem contentOutcome_file (decrypts : ciphers.Decrypts) {contents : Bytes} (kind : m.kind = .file)
    (content : m.content = ciphers.encrypt key contents) :
    contentOutcome ciphers (some key) m = .file contents := by
  simp only [contentOutcome, kind, content, reduceCtorEq, false_and, if_false, decrypts key contents]

end Session

/-- What a turn posts over a lane is shown as it was sent, under the key that the sender holds. -/
theorem Turn.sent_eq_shown (decrypts : suite.toCiphers.Decrypts) (substantial : suite.toCiphers.Substantial)
    {lane : Lane ι} {turn : Turn ι c} {m : QueuedMessage} {receipt : Receipt} (client : turn.client = lane.sender)
    (posts : Posts suite.toCiphers (turn.before.sessions lane.sender).keys turn.operation lane.receiverId m.kind
      m.content)
    (result : turn.result = .ok (.receipt receipt)) (owner : Option Identity) :
    turn.sent lane = (Session.follow suite.toCiphers owner
      ((turn.before.sessions lane.sender).keys.lookup lane.receiverId) [m]).1 := by
  obtain ⟨before, turnClient, op, turnResult, after⟩ := turn
  obtain ⟨messageId, sender, kind, content⟩ := m
  dsimp only at client posts result
  subst client result
  cases posts with
  | request => rfl
  | @text _ text key held =>
    have hsent : Turn.sent lane
        ⟨before, lane.sender, .sendText lane.receiverId text, .ok (.receipt receipt), after⟩ = [.text text] :=
      if_pos ⟨rfl, rfl⟩
    rw [hsent, Session.follow_cons, held, Session.contentOutcome_text decrypts substantial rfl rfl]
    rfl
  | @file _ contents key held =>
    have hsent : Turn.sent lane
        ⟨before, lane.sender, .sendFile lane.receiverId contents, .ok (.receipt receipt), after⟩ = [.file contents] :=
      if_pos ⟨rfl, rfl⟩
    rw [hsent, Session.follow_cons, held, Session.contentOutcome_file decrypts rfl rfl]
    rfl

/-- Replaying what waits on a lane gives the receiver the sender's key, and opens what the sender sent and the receiver
has not seen. No key waits on the way back. -/
structure Delivered (suite : CipherSuite (StateM c)) (lane : Lane ι) (history : List (Turn ι c))
    (net : Network ι c) : Prop where
  agrees : ((net.view lane).replayed suite.toCiphers).2 = net.held lane.reverse
  opened : history.flatMap (Turn.sent lane) =
    history.flatMap (Turn.shown lane) ++ ((net.view lane).replayed suite.toCiphers).1
  keyless : ∀ m ∈ net.queued lane.reverse, m.kind ≠ .keySend

/-- Only the client that a lane starts from sends over it. -/
theorem Turn.sent_eq_nil {lane : Lane ι} {turn : Turn ι c} (h : turn.client ≠ lane.sender) : turn.sent lane = [] := by
  unfold Turn.sent
  split
  · exact if_neg fun hthere => h hthere.1
  · exact if_neg fun hthere => h hthere.1
  · rfl

theorem Turn.shown_eq_nil {lane : Lane ι} {turn : Turn ι c} (h : turn.client ≠ lane.receiver) :
    turn.shown lane = [] := by
  unfold Turn.shown
  split
  · exact if_neg h
  · rfl

namespace Delivered

variable {lane : Lane ι} {history : List (Turn ι c)} {turn : Turn ι c}

/-- A turn that sends nothing over the lane. What it shows is the first of what was to be shown. -/
theorem keeps (h : Delivered suite lane history turn.before) (sent : turn.sent lane = [])
    (agrees : ((turn.after.view lane).replayed suite.toCiphers).2 = turn.after.held lane.reverse)
    (shown : turn.shown lane ++ ((turn.after.view lane).replayed suite.toCiphers).1 =
      ((turn.before.view lane).replayed suite.toCiphers).1)
    (keyless : ∀ m ∈ turn.after.queued lane.reverse, m.kind ≠ .keySend) :
    Delivered suite lane (history ++ [turn]) turn.after := by
  refine ⟨agrees, ?_, keyless⟩
  rw [List.flatMap_append, List.flatMap_append, List.flatMap_singleton, List.flatMap_singleton, sent, List.append_nil,
    List.append_assoc, shown]
  exact h.opened

theorem aside (h : Delivered suite lane history turn.before) (there : turn.Aside suite lane)
    (back : turn.Aside suite lane.reverse) : Delivered suite lane (history ++ [turn]) turn.after := by
  refine h.keeps there.sent ?_ ?_ ?_
  · rw [there.replayed, back.held]
    exact h.agrees
  · rw [there.shown, there.replayed]
    rfl
  · rw [back.queued]
    exact h.keyless

/-- A turn that passes something from the sender to the receiver. -/
theorem passes (h : Delivered suite lane history turn.before) (decrypts : suite.toCiphers.Decrypts)
    (substantial : suite.toCiphers.Substantial) (apart : lane.sender ≠ lane.receiver)
    (passes : turn.Passes suite lane) : Delivered suite lane (history ++ [turn]) turn.after := by
  cases passes with
  | @posted m receipt client posts result there back =>
    have hheld : turn.after.held lane.reverse = turn.before.held lane.reverse := congrArg View.held back
    have hqueued : turn.after.queued lane.reverse = turn.before.queued lane.reverse := congrArg View.queued back
    -- The sender's key is the one that the receiver will hold when it comes to the new message.
    have hreplayed : (turn.after.view lane).replayed suite.toCiphers =
        (((turn.before.view lane).replayed suite.toCiphers).1 ++
            (Session.follow suite.toCiphers (turn.before.view lane).owner (turn.before.held lane.reverse) [m]).1,
          turn.before.held lane.reverse) := by
      rw [there, View.replayed_push, h.agrees, Session.follow_keyless _ _ _ [m] fun m' hm' => by
        rw [List.mem_singleton.1 hm']; exact posts.kind_ne_keySend]
    refine ⟨by rw [hreplayed, hheld], ?_, by rw [hqueued]; exact h.keyless⟩
    rw [List.flatMap_append, List.flatMap_append, List.flatMap_singleton, List.flatMap_singleton,
      Turn.shown_eq_nil (client ▸ apart), List.append_nil, hreplayed, ← List.append_assoc, h.opened,
      Turn.sent_eq_shown decrypts substantial client posts result _]
    rfl
  | @shared m key receipt client operation result kind opens there back =>
    have hheld : turn.after.held lane.reverse = some key := congrArg View.held back
    have hqueued : turn.after.queued lane.reverse = turn.before.queued lane.reverse := congrArg View.queued back
    have hreplayed : (turn.after.view lane).replayed suite.toCiphers =
        (((turn.before.view lane).replayed suite.toCiphers).1, some key) := by
      rw [there, View.replayed_push, Session.follow_cons, opens, kind]
      exact Prod.ext (List.append_nil _) rfl
    have hsent : turn.sent lane = [] := by
      unfold Turn.sent
      rw [operation]
    refine h.keeps hsent (by rw [hreplayed, hheld]) ?_ (by rw [hqueued]; exact h.keyless)
    rw [Turn.shown_eq_nil (client ▸ apart), hreplayed]
    rfl
  | @collected received client operation result shown there back =>
    have hheld : turn.after.held lane.reverse = turn.before.held lane.reverse := congrArg View.held back
    have hqueued : turn.after.queued lane.reverse = turn.before.queued lane.reverse := congrArg View.queued back
    have hreplayed : (turn.after.view lane).replayed suite.toCiphers = ([], turn.before.held lane.reverse) := by
      rw [there, View.replayed_emptied, h.agrees]
    refine h.keeps (Turn.sent_eq_nil (client ▸ apart.symm)) (by rw [hreplayed, hheld]) ?_
      (by rw [hqueued]; exact h.keyless)
    rw [shown, hreplayed, List.append_nil]

/-- A turn that passes something back, but no key. -/
theorem passes_back (h : Delivered suite lane history turn.before) (apart : lane.sender ≠ lane.receiver)
    (keyless : turn.shares lane.reverse = false) (passes : turn.Passes suite lane.reverse) :
    Delivered suite lane (history ++ [turn]) turn.after := by
  have hsame (hview : turn.after.view lane = turn.before.view lane)
      (hheld : turn.after.held lane.reverse = turn.before.held lane.reverse)
      (hsent : turn.sent lane = []) (hshown : turn.shown lane = [])
      (hkeyless : ∀ m ∈ turn.after.queued lane.reverse, m.kind ≠ .keySend) :
      Delivered suite lane (history ++ [turn]) turn.after := by
    refine h.keeps hsent ?_ ?_ hkeyless
    · rw [hview, hheld]
      exact h.agrees
    · rw [hshown, hview]
      rfl
  cases passes with
  | @posted m receipt client posts result there back =>
    have hshown : turn.shown lane = [] := by
      unfold Turn.shown
      rw [result]
      split
      · next heq => cases heq
      · rfl
    have hqueued : turn.after.queued lane.reverse = turn.before.queued lane.reverse ++ [m] := congrArg View.queued there
    refine hsame back (congrArg View.held there) (Turn.sent_eq_nil (client ▸ apart.symm)) hshown fun m' hm' => ?_
    rw [hqueued] at hm'
    rcases List.mem_append.1 hm' with hold | hnew
    · exact h.keyless m' hold
    · rw [List.mem_singleton.1 hnew]
      exact posts.kind_ne_keySend
  | @shared m key receipt client operation result kind opens there back =>
    have hshares : turn.shares lane.reverse = true := Turn.shares_of_sendKey client operation result
    rw [keyless] at hshares
    cases hshares
  | @collected received client operation result shown there back =>
    have hheld : turn.after.held lane.reverse = turn.before.held lane.reverse :=
      (congrArg View.held there).trans (Session.follow_keyless _ _ _ _ h.keyless)
    have hqueued : turn.after.queued lane.reverse = [] := congrArg View.queued there
    have hsent : turn.sent lane = [] := by
      unfold Turn.sent
      rw [operation]
    exact hsame back hheld hsent (Turn.shown_eq_nil (client ▸ apart)) (by rw [hqueued]; exact nofun)

end Delivered

/-- A lane stays delivered, turn after turn, as long as the receiver sends the sender no key. -/
theorem Network.Reaches.delivered {ids : Nat → ClientId} {sources : ι → c} {history : List (Turn ι c)}
    {net : Network ι c} (h : Reaches suite (Network.start ids sources) history net) (unwraps : suite.Unwraps)
    (decrypts : suite.toCiphers.Decrypts) (substantial : suite.toCiphers.Substantial) (distinct : net.Distinct)
    {lane : Lane ι} (between : net.Between lane)
    (keyless : ∀ turn ∈ history, turn.shares lane.reverse = false) : Delivered suite lane history net := by
  induction h with
  | start => exact ⟨rfl, rfl, nofun⟩
  | @turn history net earlier client op fits ih =>
    have hhappens : Happens suite net client op _ _ := turn_happens earlier.inOrder fits
    have hbefore := hhappens.grows.distinct distinct
    have hdelivered := ih hbefore (hhappens.grows.between between) fun turn hturn =>
      keyless turn (List.mem_append_left _ hturn)
    have hlast := keyless (net.turn suite client op) (by simp)
    have hsound := earlier.sound unwraps hbefore
    rcases hhappens.passes hsound unwraps distinct between with hthere | hback | ⟨hthere, hback⟩
    · exact hdelivered.passes decrypts substantial between.apart hthere
    · exact hdelivered.passes_back between.apart hlast hback
    · exact hdelivered.aside hthere hback

variable {ids : Nat → ClientId} {sources : ι → c} {history : List (Turn ι c)} {net : Network ι c} {a b : ι}
  {me you : Identity}

/-- However the turns of any clients interleave, all that one of them sends another is opened, in order, if the other
sends it no key: the texts and files that were sent are those that were shown, followed by one for each text and file
that still waits, and these are shown when they are next collected. -/
theorem Network.opened_in_order (unwraps : suite.Unwraps) (decrypts : suite.toCiphers.Decrypts)
    (substantial : suite.toCiphers.Substantial)
    (reaches : Reaches suite (Network.start ids sources) history net) (distinct : net.Distinct) (apart : a ≠ b)
    (ha : (net.sessions a).identity = some me) (hb : (net.sessions b).identity = some you)
    (oneWay : ∀ turn ∈ history, turn.client = b → turn.operation ≠ .sendKey me.id) :
    let lane : Lane ι := ⟨a, b, me.id, you.id⟩
    let sent := history.flatMap (Turn.sent lane)
    let shown := history.flatMap (Turn.shown lane)
    ∃ pending : List Outcome,
      sent = shown ++ pending ∧
      pending.length = ((net.queued lane).filter (·.kind.isContent)).length ∧
      (net.Fits b .fetchWaiting →
        (∃ received, (net.turn suite b .fetchWaiting).result = .ok (.messages received)) ∧
          (net.turn suite b .fetchWaiting).shown lane = pending) := by
  intro lane sent shown
  have hsound := reaches.sound unwraps distinct
  have hbetween : net.Between lane := hsound.between apart ha hb
  have hkeyless : ∀ turn ∈ history, turn.shares lane.reverse = false := by
    intro turn hturn
    unfold Turn.shares
    split
    · next peer reply operation result =>
      refine decide_eq_false fun hback => oneWay turn hturn hback.1 ?_
      rw [operation, hback.2]
      rfl
    · rfl
  have hdelivered := reaches.delivered unwraps decrypts substantial distinct hbetween hkeyless
  refine ⟨((net.view lane).replayed suite.toCiphers).1, hdelivered.opened, Session.length_follow _ _ _ _,
    fun fits => ?_⟩
  obtain ⟨received, hresult⟩ : ∃ received, (net.turn suite b .fetchWaiting).result = .ok (.messages received) :=
    turn_collects hb reaches.inOrder fits
  have hhappens : Happens suite net b .fetchWaiting _ _ := turn_happens reaches.inOrder fits
  rw [hresult] at hhappens
  have hshown := hhappens.shown_collected hbetween rfl
  rw [← hresult] at hshown
  exact ⟨⟨received, hresult⟩, hshown⟩

open Transparent in
theorem Network.hello_opened_file_waiting :
    let script : List (Bool × Operation) := [(false, .sendKey bob.id), (false, .sendText bob.id "hello"),
      (true, .fetchWaiting), (false, .sendFile bob.id [1, 2])]
    let lane : Lane Bool := ⟨false, true, alice.id, bob.id⟩
    (run script).1.flatMap (Turn.sent lane) = [.text "hello", .file [1, 2]] ∧
      (run script).1.flatMap (Turn.shown lane) = [.text "hello"] ∧
      ((run script).2.turn (Transparent.suite counter) true .fetchWaiting).shown lane = [.file [1, 2]] := by
  intro script lane
  have hsent : (run script).1.flatMap (Turn.sent lane) = [.text "hello", .file [1, 2]] := by decide +kernel
  have hshown : (run script).1.flatMap (Turn.shown lane) = [.text "hello"] := by decide +kernel
  obtain ⟨pending, hall, -, hnext⟩ := Network.opened_in_order counter_unwraps decrypts substantial
    (reaches_run script (by decide +kernel)) (by decide +kernel) Bool.false_ne_true
    (show ((run script).2.sessions false).identity = some alice by decide +kernel)
    (show ((run script).2.sessions true).identity = some bob by decide +kernel) (by decide +kernel)
  obtain ⟨-, hcollected⟩ := hnext (by decide +kernel)
  rw [hsent, hshown] at hall
  obtain rfl : [.file [1, 2]] = pending := (List.cons.inj hall).2
  exact ⟨hsent, hshown, hcollected⟩

open Transparent in
/-- A cipher may open all that it sealed and yet have an empty ciphertext for a text. The text is then shown empty. -/
theorem Network.empty_ciphertext_shown_empty :
    let script : List (Bool × Operation) := [(false, .register "alice"), (true, .register "bob"),
      (false, .sendKey bob.id), (false, .sendText bob.id "hi"), (true, .fetchWaiting)]
    let history := (clients.play terse script).1
    let net := (clients.play terse script).2
    let lane : Lane Bool := ⟨false, true, alice.id, bob.id⟩
    terse.Unwraps ∧ terse.toCiphers.Decrypts ∧ Reaches terse clients history net ∧ net.Distinct ∧
      (net.sessions false).identity = some alice ∧ (net.sessions true).identity = some bob ∧
      (∀ turn ∈ history, turn.client = true → turn.operation ≠ .sendKey alice.id) ∧
      history.flatMap (Turn.sent lane) = [.text "hi"] ∧ history.flatMap (Turn.shown lane) = [.text ""] ∧
      net.queued lane = [] := by
  intro script history net lane
  have hreaches : Reaches terse clients history net := Reaches.start.play script (by decide +kernel)
  exact ⟨counter_unwraps, terse_decrypts, hreaches, by decide +kernel, by decide +kernel, by decide +kernel,
    by decide +kernel, by decide +kernel, by decide +kernel, by decide +kernel⟩

/-- The standard ciphers keep both laws: they open what they sealed, and make one block at least of anything. -/
theorem Standard.opens_what_it_sealed : Standard.ciphers.Decrypts ∧ Standard.ciphers.Substantial := by
  refine ⟨fun key plaintext => ?_, fun key plaintext nothing => ?_⟩
  · change Standard.decrypt key (Cbc.encrypt key.toBytes plaintext) = .ok plaintext
    rw [Standard.decrypt, Cbc.decrypt_encrypt]
  · have hlength : (Cbc.encrypt key.toBytes plaintext).length = 16 * (plaintext.length / 16 + 1) :=
      Cbc.length_encrypt key.toBytes plaintext
    rw [show Cbc.encrypt key.toBytes plaintext = [] from nothing, List.length_nil] at hlength
    omega

end SealedPost
