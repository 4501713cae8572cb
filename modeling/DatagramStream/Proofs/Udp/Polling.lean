import DatagramStream.Proofs.Udp.Receiving

/-! A host on a socket looks at its input only when it has nothing else to offer, and waits by
looking again and again while others act. -/

namespace DatagramStream

namespace Input

def content (i : Input) : Bytes :=
  i.buffered ++ i.typed

structure Exhausted (i : Input) : Prop where
  ended : i.ended = true
  content : i.content = []

variable {i : Input} {limit : Nat}

lemma content_take (limit : Nat) (i : Input) :
    i.content = (i.take limit).1 ++ (i.take limit).2.content := by
  rw [take]
  split_ifs with hpast hempty
  · rw [content, content, List.isEmpty_iff.mp hpast.1]
    exact (List.take_append_drop limit i.typed).symm
  · simp only [content, List.isEmpty_iff.mp hempty, List.nil_append]
    rw [← List.append_assoc, List.take_append_drop, List.take_append_drop]
  · simp only [content]
    rw [← List.append_assoc, List.take_append_drop]

lemma length_take_le (limit : Nat) (i : Input) : (i.take limit).1.length ≤ limit := by
  rw [take]
  split_ifs
  · exact List.length_take_le limit _
  · exact List.length_take_le limit _
  · exact List.length_take_le limit _

lemma ended_take (limit : Nat) (i : Input) : (i.take limit).2.ended = i.ended := by
  rw [take]
  split_ifs
  · rfl
  · rfl
  · rfl

lemma content_of_take_nil (hl : 0 < limit) (ht : (i.take limit).1 = []) : i.content = [] := by
  have hroom : limit ≠ 0 := Nat.ne_of_gt hl
  rw [take] at ht
  split_ifs at ht with hpast hempty
  · rw [content, List.isEmpty_iff.mp hpast.1, (List.take_eq_nil_iff.mp ht).resolve_left hroom]
    rfl
  · have hbuffer : i.bufferSize ≠ 0 := fun hz => hpast ⟨hempty, hz ▸ Nat.zero_le limit⟩
    have hfilled := (List.take_eq_nil_iff.mp ht).resolve_left hroom
    rw [content, List.isEmpty_iff.mp hempty, (List.take_eq_nil_iff.mp hfilled).resolve_left hbuffer]
    rfl
  · have hnone := (List.take_eq_nil_iff.mp ht).resolve_left hroom
    exact absurd (List.isEmpty_iff.mpr hnone) hempty

lemma read_cases (limit : Nat) (i : Input) :
    (∃ cause faults, cause.kind ≠ .interrupted ∧
      i.read limit = (.error cause, { i with faults := faults })) ∨
      ∃ faults,
        i.read limit = (.ok (i.take limit).1, { (i.take limit).2 with faults := faults }) := by
  rw [read]
  generalize i.faults = pending
  induction pending with
  | nil => exact .inr ⟨[], rfl⟩
  | cons fault pending ih =>
    cases fault with
    | none => exact .inr ⟨pending, rfl⟩
    | some cause =>
      rw [read.go]
      split_ifs with hk
      · exact ih
      · exact .inl ⟨cause, pending, hk, rfl⟩

lemma read_ok {data : Bytes} {input : Input} (hr : i.read limit = (.ok data, input)) :
    i.content = data ++ input.content ∧ data.length ≤ limit ∧ input.ended = i.ended ∧
      (0 < limit → i.readable = true → data = [] → input.Exhausted) := by
  obtain ⟨cause, faults, -, hfailed⟩ | ⟨faults, hread⟩ := i.read_cases limit
  · cases hfailed.symm.trans hr
  · obtain ⟨hdata, hinput⟩ := Prod.mk.inj (hread.symm.trans hr)
    obtain rfl := Except.ok.inj hdata
    subst hinput
    refine ⟨i.content_take limit, i.length_take_le limit, i.ended_take limit,
      fun hl hreadable hnone => ?_⟩
    have hempty := content_of_take_nil hl hnone
    have hrest := i.content_take limit
    rw [hempty, hnone] at hrest
    obtain ⟨-, htyped⟩ := List.append_eq_nil_iff.mp hempty
    rw [readable, htyped] at hreadable
    exact ⟨(i.ended_take limit).trans hreadable, hrest.symm⟩

lemma read_error {cause : IoError} {input : Input} (hr : i.read limit = (.error cause, input)) :
    cause.kind ≠ .interrupted ∧ input.content = i.content ∧ input.ended = i.ended := by
  obtain ⟨e, faults, hkind, hfailed⟩ | ⟨faults, hread⟩ := i.read_cases limit
  · obtain ⟨hcause, hinput⟩ := Prod.mk.inj (hfailed.symm.trans hr)
    obtain rfl := Except.error.inj hcause
    subst hinput
    exact ⟨hkind, rfl, rfl⟩
  · cases hread.symm.trans hr

end Input

namespace UdpHost

variable {h h' : UdpHost} {interest : Signals} {deadline : Option Millis}
  {outcome : Except IoError Signals}

lemma watchesInput_iff : h.watchesInput interest = true ↔
    interest.appData = true ∧ h.inputEnded = false ∧ h.staged = [] := by
  simp [watchesInput, and_assoc]

lemma look_unread (hu : h.watchesInput interest = false ∨ h.input.readable = false) :
    h.look interest = (.ok (h.known interest), h) := by
  rw [look, if_neg]
  intro hboth
  obtain ⟨hwatch, hreadable⟩ := Bool.and_eq_true_iff.mp hboth
  obtain hno | hno := hu
  · rw [hno] at hwatch
    cases hwatch
  · rw [hno] at hreadable
    cases hreadable

lemma look_of_full (hf : h.staged ≠ [] ∨ h.inputEnded = true) (interest : Signals) :
    h.look interest = (.ok (h.known interest), h) := by
  apply look_unread
  left
  rw [← Bool.not_eq_true, watchesInput_iff]
  rintro ⟨-, hopen, hempty⟩
  obtain hfull | hended := hf
  · exact hfull hempty
  · rw [hopen] at hended
    cases hended

lemma look_reads (interest : Signals) (h : UdpHost) :
    (h.watchesInput interest = false ∨ h.input.readable = false) ∧
      h.look interest = (.ok (h.known interest), h) ∨
      interest.appData = true ∧ h.inputEnded = false ∧ h.staged = [] ∧ h.input.readable = true ∧
        ((∃ cause input, h.input.read h.mss = (.error cause, input) ∧
            h.look interest = (.error cause, { h with input := input, staged := [] })) ∨
          ∃ data input h', h.input.read h.mss = (.ok data, input) ∧
            h' = { h with input := input, staged := data, inputEnded := data.isEmpty } ∧
            h.look interest = (.ok (h'.known interest), h')) := by
  cases hw : h.watchesInput interest with
  | false => exact .inl ⟨.inl rfl, look_unread (.inl hw)⟩
  | true =>
    cases hr : h.input.readable with
    | false => exact .inl ⟨.inr rfl, look_unread (.inr hr)⟩
    | true =>
      obtain ⟨hdata, hopen, hempty⟩ := watchesInput_iff.mp hw
      refine .inr ⟨hdata, hopen, hempty, rfl, ?_⟩
      rw [look, hw, hr, Bool.and_true, if_pos rfl, fill]
      obtain ⟨answer, input⟩ := h.input.read h.mss
      cases answer with
      | error cause => exact .inl ⟨cause, input, rfl, rfl⟩
      | ok data => exact .inr ⟨data, input, _, rfl, rfl, by simp only [hopen, Bool.false_or]⟩

lemma look_stages {ready : Signals} (hw : h.watchesInput interest = true)
    (hr : h.input.readable = true) (hl : h.look interest = (.ok ready, h')) :
    h'.staged ≠ [] ∨ h'.inputEnded = true := by
  obtain ⟨hunread, -⟩ |
      ⟨-, -, -, -, ⟨cause, input, -, hfailed⟩ | ⟨data, input, after, -, hafter, hread⟩⟩ :=
    look_reads interest h
  · rw [hw, hr] at hunread
    simp at hunread
  · cases hfailed.symm.trans hl
  · obtain ⟨-, rfl⟩ := Prod.mk.inj (hread.symm.trans hl)
    subst hafter
    cases data with
    | nil => exact .inr rfl
    | cons x xs => exact .inl (List.cons_ne_nil x xs)

lemma look_again {ready : Signals} (hl : h.look interest = (.ok ready, h'))
    (hn : ready.isEmpty = true) :
    h'.look interest = (.ok ready, h') := by
  obtain ⟨-, hsame⟩ |
      ⟨hdata, -, -, -, ⟨cause, input, -, hfailed⟩ | ⟨data, input, after, -, hafter, hread⟩⟩ :=
    look_reads interest h
  · obtain ⟨-, rfl⟩ := Prod.mk.inj (hsame.symm.trans hl)
    exact hl
  · cases hfailed.symm.trans hl
  · obtain ⟨hready, rfl⟩ := Prod.mk.inj (hread.symm.trans hl)
    obtain rfl := Except.ok.inj hready
    -- Bytes of the input would have been reported, so the input has ended.
    apply look_of_full
    right
    subst hafter
    have hsilent := congrArg Signals.appData (beq_iff_eq.mp hn)
    simpa [known, hdata, Signals.empty] using hsilent

lemma wait_again {ready : Signals} (hl : h.look interest = (.ok ready, h'))
    (hn : ready.isEmpty = true) (deadline : Option Millis) :
    h.wait interest deadline = h'.wait interest deadline := by
  rw [wait, wait, hl, look_again hl hn]

/-- Others have acted meanwhile: on the network as they like, and on the input by typing so much
more or ending it. In which pieces the input comes, and what goes wrong with it, is theirs to
choose. -/
structure Meanwhile (typed : Bytes) (h h' : UdpHost) : Prop where
  own : h' = { h with socket := h'.socket, input := h'.input }
  content : h'.input.content = h.input.content ++ typed
  ended : h.input.ended = true → h'.input.ended = true ∧ typed = []

def Still (typed : Bytes) (h h' : UdpHost) : Prop :=
  typed = [] ∧ h' = h

lemma Still.meanwhile {typed : Bytes} (hs : Still typed h h') : Meanwhile typed h h' := by
  obtain ⟨rfl, rfl⟩ := hs
  exact ⟨rfl, (List.append_nil _).symm, fun hended => ⟨hended, rfl⟩⟩

def Settled (due : Option Millis) (now : Millis) : Except IoError Signals → Prop
  | .error _ => True
  | .ok ready => ready.isEmpty = false ∨ ∃ deadline, due = some deadline ∧ deadline ≤ now

/-- A wait from one time to another, look by look: some time passes before each look, in which
others act, and a look that does not end it is followed by another. -/
inductive Polls (others : Bytes → UdpHost → UdpHost → Prop) (interest : Signals)
    (due : Option Millis) :
    Millis → UdpHost → Bytes → Except IoError Signals → Millis → UdpHost → Prop
  | refused {now : Millis} {h : UdpHost} : (h.known interest).isEmpty = true →
      interest.networkData = false → h.watchesInput interest = false → due = none →
        Polls others interest due now h [] (.error .nothingToWaitFor) now h
  | settled {now now' : Millis} {h met h' : UdpHost} {typed : Bytes}
      {outcome : Except IoError Signals} :
      now ≤ now' → others typed h met → met.look interest = (outcome, h') →
      Settled due now' outcome →
        Polls others interest due now h typed outcome now' h'
  | again {now later now' : Millis} {h met looked h' : UdpHost} {typed more : Bytes}
      {idle outcome : Except IoError Signals} :
      now ≤ later → others typed h met → met.look interest = (idle, looked) →
        ¬Settled due later idle →
        Polls others interest due later looked more outcome now' h' →
          Polls others interest due now h (typed ++ more) outcome now' h'

lemma Polls.mono {others others' : Bytes → UdpHost → UdpHost → Prop} {due : Option Millis}
    {now now' : Millis} {typed : Bytes}
    (ho : ∀ {typed h h'}, others typed h h' → others' typed h h')
    (hp : Polls others interest due now h typed outcome now' h') :
    Polls others' interest due now h typed outcome now' h' := by
  induction hp with
  | refused hnone hnet hwatch hdue => exact .refused hnone hnet hwatch hdue
  | settled htime hact hlook hset => exact .settled htime (ho hact) hlook hset
  | again htime hact hlook hset _ ih => exact .again htime (ho hact) hlook hset ih

lemma wait_of_polls {due : Option Millis} {now now' : Millis} {typed : Bytes}
    (hp : Polls Still interest due now h typed outcome now' h')
    (hd : deadline.isSome = due.isSome) :
    h.wait interest deadline = some (outcome, h') := by
  induction hp with
  | refused hnone hnet hwatch hdue =>
    rw [hdue, Option.isSome_none] at hd
    rw [wait, look_unread (.inl hwatch)]
    simp [hnone, hnet, hwatch, hd]
  | @settled _ _ _ _ _ _ outcome _ hact hlook hset =>
    obtain ⟨-, rfl⟩ := hact
    rw [wait, hlook]
    cases outcome with
    | error cause => rfl
    | ok ready =>
      dsimp only
      rw [if_pos]
      obtain hready | ⟨limit, hdue, -⟩ := hset
      · exact .inl (by rw [hready, Bool.not_false])
      · exact .inr (by rw [hd, hdue, Option.isSome_some])
  | @again _ _ _ _ _ _ _ _ _ idle _ _ hact hlook hset _ ih =>
    obtain ⟨-, rfl⟩ := hact
    cases idle with
    | error cause => exact absurd trivial hset
    | ok ready =>
      rw [wait_again hlook (by simpa using mt Or.inl hset) deadline]
      exact ih

lemma polls_of_wait (hw : h.wait interest deadline = some (outcome, h')) (now : Millis) :
    ∃ now', Polls Still interest (deadline.map (now + ·)) now h [] outcome now' h' := by
  rw [wait] at hw
  split at hw
  · next cause looked hlook =>
    cases hw
    exact ⟨now, .settled (Nat.le_refl now) ⟨rfl, rfl⟩ hlook trivial⟩
  · next ready looked hlook =>
    cases hready : ready.isEmpty with
    | false =>
      rw [hready] at hw
      cases hw
      exact ⟨now, .settled (Nat.le_refl now) ⟨rfl, rfl⟩ hlook (.inl hready)⟩
    | true =>
      cases deadline with
      | some limit =>
        rw [if_pos (.inr rfl)] at hw
        cases hw
        exact ⟨now + limit,
          .settled (Nat.le_add_right now limit) ⟨rfl, rfl⟩ hlook (.inr ⟨_, rfl, Nat.le_refl _⟩)⟩
      | none =>
        rw [hready, if_neg (by simp)] at hw
        split_ifs at hw with hcome
        cases hw
        obtain ⟨hnet, hwatch⟩ := Bool.or_eq_false_iff.mp (Bool.not_eq_true _ ▸ hcome)
        have hknown := (look_cases interest h).2 ready (congrArg Prod.fst hlook)
        rw [hlook] at hknown
        have hstill : Still [] h h := ⟨rfl, rfl⟩
        refine ⟨now, .again (Nat.le_refl now) hstill hlook ?_ (.refused ?_ hnet hwatch rfl)⟩
        · rintro (hsome | ⟨limit, hdue, -⟩)
          · rw [hready] at hsome
            cases hsome
          · cases hdue
        · rw [← hknown]
          exact hready

theorem wait_eq_some_iff (now : Millis) : h.wait interest deadline = some (outcome, h') ↔
    ∃ typed now', Polls Still interest (deadline.map (now + ·)) now h typed outcome now' h' := by
  constructor
  · intro hw
    obtain ⟨now', hp⟩ := polls_of_wait hw now
    exact ⟨[], now', hp⟩
  · rintro ⟨typed, now', hp⟩
    exact wait_of_polls hp Option.isSome_map.symm

end UdpHost

end DatagramStream
