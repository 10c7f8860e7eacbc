import Coivitas.Foundation.Json
import Coivitas.Foundation.OrderedMap
import Coivitas.Foundation.Outcome
import Coivitas.Foundation.Parcels
import Coivitas.Foundation.Text

/-! # Framing on a socket

A long text goes over the socket in frames, and the receivers put the frames of a text together
again, whatever order they come in and whatever comes between them. A text is cut between code
units, so a frame may hold half a character.
-/

namespace Coivitas.Communication

open Foundation

/-- A string of the runtime: code units, lone surrogates included. -/
abbrev JsString := List Nat

structure Frame where
  frameId : String
  index : Nat
  total : Nat
  data : JsString
  deriving DecidableEq, Repr

structure FrameBuffer where
  frames : OrderedMap Nat JsString
  total : Nat

/-- The buffers of one socket, by frame id. -/
abbrev FrameBuffers := OrderedMap String FrameBuffer

/-- What the receivers ask of a parsed value: whether its `_frame` is `true`. -/
inductive Parsed where
  | frame (frame : Frame)
  | envelope
  deriving DecidableEq, Repr

/-- `JSON.stringify` on frames and `JSON.parse`; `none` when it throws. -/
structure FrameJson where
  stringify : Frame → String
  parse : JsString → Option Parsed

inductive ReceiveError where
  | syntaxError
  | missingFrame
  deriving DecidableEq, Repr

/-! ## The sender -/

def framingThreshold : Nat := 64 * 1024

/-- The frame id is the random one drawn for the text. -/
def splitIntoFrames (frameId : String) (serialized : JsString) : Option (List Frame) :=
  if serialized.length ≤ framingThreshold then none
  else
    let total := sliceCount framingThreshold serialized
    some ((List.range total).map fun i => ⟨frameId, i, total, slice framingThreshold serialized i⟩)

variable (P : FrameJson)

/-- The texts given to `socket.send`. -/
def sendFramed (frameId serialized : String) : List String :=
  match splitIntoFrames frameId (codeUnits serialized) with
  | some frames => frames.map P.stringify
  | none => [serialized]

/-! ## The receivers -/

/-- One message event: the text of an envelope once it is there, and the buffers. -/
def receive (bufs : FrameBuffers) (message : String) :
    Except ReceiveError (Option JsString) × FrameBuffers :=
  let raw := codeUnits message
  match P.parse raw with
  | none => (.error .syntaxError, bufs)
  | some .envelope => (.ok (some raw), bufs)
  | some (.frame frame) =>
      let buf := (bufs.get? frame.frameId).getD ⟨.empty, frame.total⟩
      let buf := { buf with frames := buf.frames.set frame.index frame.data }
      let bufs := bufs.set frame.frameId buf
      if buf.frames.entries.length < frame.total then (.ok none, bufs)
      else
        match (List.range frame.total).mapM buf.frames.get? with
        | none => (.error .missingFrame, bufs)
        | some chunks =>
            let assembled := chunks.flatten
            let bufs := bufs.delete frame.frameId
            match P.parse assembled with
            | none => (.error .syntaxError, bufs)
            | some _ => (.ok (some assembled), bufs)

/-- The message events of a listening socket. -/
def receiveAll : FrameBuffers → List String →
    List (Except ReceiveError (Option JsString)) × FrameBuffers
  | bufs, [] => ([], bufs)
  | bufs, message :: messages =>
      let (output, bufs) := receive P bufs message
      let (outputs, bufs) := receiveAll bufs messages
      (output :: outputs, bufs)

/-- A sender waits for the first envelope or error; `none` while it waits. -/
def awaitResponse : FrameBuffers → List String → Option (Except ReceiveError JsString)
  | _, [] => none
  | bufs, message :: messages =>
      match receive P bufs message with
      | (.error e, _) => some (.error e)
      | (.ok (some assembled), _) => some (.ok assembled)
      | (.ok none, bufs) => awaitResponse bufs messages

/-! ## Messages and their parts -/

/-- A text that is sent, with the frame id that is drawn if it is long. -/
structure Message where
  text : String
  frameId : String
  deriving DecidableEq, Repr

def Message.frames (m : Message) : Option (List Frame) :=
  splitIntoFrames m.frameId (codeUnits m.text)

/-- One call of `socket.send` for a message. -/
structure Part where
  message : Message
  frame : Option Frame
  deriving DecidableEq, Repr

def Part.data (part : Part) : String :=
  match part.frame with
  | some frame => P.stringify frame
  | none => part.message.text

def Message.parts (m : Message) : List Part :=
  match m.frames with
  | some frames => frames.map fun frame => ⟨m, some frame⟩
  | none => [⟨m, none⟩]

theorem map_data_parts (m : Message) : m.parts.map (Part.data P) = sendFramed P m.frameId m.text := by
  unfold Message.parts sendFramed Message.frames
  cases splitIntoFrames m.frameId (codeUnits m.text) with
  | none => rfl
  | some frames => simp [Part.data, Function.comp_def]

theorem message_of_mem_parts (m : Message) : ∀ part ∈ m.parts, part.message = m := by
  intro part hpart
  unfold Message.parts at hpart
  split at hpart
  · obtain ⟨frame, -, rfl⟩ := List.mem_map.mp hpart
    rfl
  · rw [List.mem_singleton.mp hpart]

/-- A message of several frames: they are its slices. -/
structure Message.Framed (m : Message) (frames : List Frame) : Prop where
  frames_eq : m.frames = some frames
  slices : frames = (List.range (sliceCount framingThreshold (codeUnits m.text))).map fun i =>
    ⟨m.frameId, i, sliceCount framingThreshold (codeUnits m.text),
      slice framingThreshold (codeUnits m.text) i⟩
  several : 1 < sliceCount framingThreshold (codeUnits m.text)

theorem Message.framed_of_eq_some {m : Message} {frames : List Frame}
    (hframes : m.frames = some frames) : m.Framed frames := by
  refine ⟨hframes, ?_, ?_⟩ <;>
    simp only [Message.frames, splitIntoFrames, Option.ite_none_left_eq_some,
      Option.some.injEq] at hframes
  · exact hframes.2.symm
  · exact one_lt_sliceCount (by decide) (not_le.mp hframes.1)

/-- The part is the last of its message to arrive. -/
abbrev Part.Completes (before : List Part) (part : Part) : Prop :=
  Parcel.Completes Message.parts Part.message before part

/-- What a message event gives when the earlier parts have arrived. -/
def Part.output (before : List Part) (part : Part) : Option JsString :=
  if part.Completes before then some (codeUnits part.message.text) else none

/-! ## The buffers in a run -/

/-- The frames of a message that have arrived. -/
def arrived (m : Message) (before : List Part) : List Frame :=
  before.filterMap fun part => if part.message = m then part.frame else none

/-- A buffer is kept for a message while some of its frames have arrived and others have not. -/
structure Holds (messages : List Message) (bufs : FrameBuffers) (before : List Part) : Prop where
  kept : ∀ m ∈ messages, ∀ frames, m.frames = some frames →
    (bufs.get? m.frameId).map (fun buf => buf.frames.entries) =
      if arrived m before = [] ∨ ∀ part ∈ m.parts, part ∈ before then none
      else some ((arrived m before).map fun frame => (frame.index, frame.data))
  absent : ∀ frameId, (∀ m ∈ messages, m.frames ≠ none → m.frameId ≠ frameId) →
    bufs.get? frameId = none

variable {P} {messages : List Message}

theorem holds_nil : Holds messages .empty [] where
  kept m _ frames _ := by simp [arrived]
  absent _ _ := rfl

theorem arrived_append (m : Message) (before : List Part) (part : Part) :
    arrived m (before ++ [part]) =
      arrived m before ++ (if part.message = m then part.frame.toList else []) := by
  rw [arrived, List.filterMap_append, arrived]
  by_cases hmessage : part.message = m
  · cases hframe : part.frame <;> simp [hmessage, hframe]
  · simp [hmessage]

theorem mem_arrived {m : Message} {before : List Part} {frame : Frame} :
    frame ∈ arrived m before ↔ (⟨m, some frame⟩ : Part) ∈ before := by
  rw [arrived, List.mem_filterMap]
  constructor
  · rintro ⟨⟨message, arrivedFrame⟩, hpart, hframe⟩
    dsimp only at hframe
    split at hframe
    next hmessage => exact hmessage ▸ hframe ▸ hpart
    next => cases hframe
  · intro hpart
    exact ⟨_, hpart, by simp⟩

/-- The place of a frame of a message, and what it holds. -/
theorem Message.Framed.mem_iff {m : Message} {frames : List Frame} (hframed : m.Framed frames)
    {frame : Frame} : frame ∈ frames ↔
      ∃ i < sliceCount framingThreshold (codeUnits m.text),
        frame = ⟨m.frameId, i, sliceCount framingThreshold (codeUnits m.text),
          slice framingThreshold (codeUnits m.text) i⟩ := by
  rw [hframed.slices]
  simp only [List.mem_map, List.mem_range, eq_comm]

theorem Message.Framed.length_eq {m : Message} {frames : List Frame} (hframed : m.Framed frames) :
    frames.length = sliceCount framingThreshold (codeUnits m.text) := by
  rw [hframed.slices, List.length_map, List.length_range]

theorem Message.Framed.nodup {m : Message} {frames : List Frame} (hframed : m.Framed frames) :
    frames.Nodup := by
  rw [hframed.slices]
  exact List.nodup_range.map fun i j heq => congrArg Frame.index heq

theorem Message.Framed.mem_parts {m : Message} {frames : List Frame} (hframed : m.Framed frames)
    {part : Part} : part ∈ m.parts ↔ ∃ frame ∈ frames, part = ⟨m, some frame⟩ := by
  rw [Message.parts, hframed.frames_eq]
  simp only [List.mem_map, eq_comm]

theorem arrived_filter (m : Message) (before : List Part) :
    arrived m (before.filter fun part => part.message = m) = arrived m before := by
  rw [arrived, List.filterMap_filter, arrived]
  exact List.filterMap_congr fun part _ => by by_cases hmessage : part.message = m <;> simp [hmessage]

theorem nodup_arrived {m : Message} {before : List Part}
    (honce : (before.filter fun part => part.message = m).Nodup) : (arrived m before).Nodup := by
  rw [← arrived_filter]
  refine honce.filterMap fun part other frame hframe hother => ?_
  simp only [Option.mem_def] at hframe hother
  split at hframe
  next hmessage =>
    split at hother
    next hmessage' =>
      cases part
      cases other
      simp_all
    next => cases hother
  next => cases hframe

/-- What one more frame of a message leaves of its frames. -/
theorem arrived_frame {m : Message} {frames : List Frame} (hframed : m.Framed frames)
    {before : List Part} (hsent : ∀ part ∈ before, part ∈ part.message.parts) {frame : Frame}
    (hframe : frame ∈ frames)
    (honce : ((before ++ [(⟨m, some frame⟩ : Part)]).filter fun part => part.message = m).Nodup) :
    (arrived m before ++ [frame]).Nodup ∧ (∀ other ∈ arrived m before ++ [frame], other ∈ frames) ∧
      (Part.Completes before ⟨m, some frame⟩ ↔
        ∀ other ∈ frames, other ∈ arrived m before ++ [frame]) := by
  have hnodup := nodup_arrived honce
  rw [arrived_append, if_pos rfl] at hnodup
  refine ⟨hnodup, fun other hother => ?_, ?_⟩
  · rcases List.mem_append.mp hother with hother | hother
    · have hpart : (⟨m, some other⟩ : Part) ∈ m.parts := hsent ⟨m, some other⟩ (mem_arrived.mp hother)
      obtain ⟨known, hknown, heq⟩ := hframed.mem_parts.mp hpart
      rw [Part.mk.injEq, Option.some.injEq] at heq
      exact heq.2 ▸ hknown
    · exact List.mem_singleton.mp hother ▸ hframe
  · unfold Part.Completes Parcel.Completes
    constructor
    · intro hall other hother
      rcases hall ⟨m, some other⟩ (hframed.mem_parts.mpr ⟨other, hother, rfl⟩) with heq | hbefore
      · rw [Part.mk.injEq, Option.some.injEq] at heq
        simp [heq.2]
      · exact List.mem_append_left _ (mem_arrived.mpr hbefore)
    · intro hall part hpart
      obtain ⟨other, hother, rfl⟩ := hframed.mem_parts.mp hpart
      rcases List.mem_append.mp (hall other hother) with hbefore | hlast
      · exact Or.inr (mem_arrived.mp hbefore)
      · exact Or.inl (by rw [List.mem_singleton.mp hlast])

/-- The last frame of a message yields its text, and every other one is kept. -/
theorem receive_frame {m : Message} (hm : m ∈ messages) {frames : List Frame}
    (hframed : m.Framed frames) {before : List Part} {bufs : FrameBuffers}
    (hholds : Holds messages bufs before)
    (hsent : ∀ part ∈ before, part ∈ part.message.parts) {frame : Frame} (hframe : frame ∈ frames)
    (honce : ((before ++ [(⟨m, some frame⟩ : Part)]).filter fun part => part.message = m).Nodup)
    (hread : P.parse (codeUnits (P.stringify frame)) = some (.frame frame))
    (hparse : P.parse (codeUnits m.text) = some .envelope) :
    ∃ bufs', receive P bufs (P.stringify frame) =
        (.ok (Part.output before ⟨m, some frame⟩), bufs') ∧
      (∀ frameId, frameId ≠ m.frameId → bufs'.get? frameId = bufs.get? frameId) ∧
      (bufs'.get? m.frameId).map (fun buf => buf.frames.entries) =
        if Part.Completes before ⟨m, some frame⟩ then none
        else some ((arrived m before ++ [frame]).map fun frame => (frame.index, frame.data)) := by
  obtain ⟨hnodup, hknown, hcompletes⟩ := arrived_frame hframed hsent hframe honce
  obtain ⟨i, hi, hframeEq⟩ := hframed.mem_iff.mp hframe
  have hnew : frame ∉ arrived m before := by
    intro hold
    rw [List.nodup_append] at hnodup
    exact hnodup.2.2 frame hold frame (List.mem_singleton_self frame) rfl
  have hincomplete : ¬ ∀ part ∈ m.parts, part ∈ before := fun hall =>
    hnew (mem_arrived.mpr (hall _ (hframed.mem_parts.mpr ⟨frame, hframe, rfl⟩)))
  set buf := (bufs.get? frame.frameId).getD ⟨.empty, frame.total⟩ with hbuf
  have hid : frame.frameId = m.frameId := by rw [hframeEq]
  have htotal : frame.total = frames.length := by rw [hframeEq, hframed.length_eq]
  -- the buffer of the message holds the frames that have arrived, if there is one
  have hentries : buf.frames.entries =
      (arrived m before).map fun frame => (frame.index, frame.data) := by
    have hkept := hholds.kept m hm frames hframed.frames_eq
    rw [hbuf, hid]
    cases hget : bufs.get? m.frameId with
    | none =>
        rw [hget, Option.map_none] at hkept
        split at hkept
        next hempty => rw [hempty.resolve_right hincomplete]; rfl
        next => cases hkept
    | some kept =>
        rw [hget, Option.map_some] at hkept
        split at hkept
        next => cases hkept
        next => exact Option.some.inj hkept
  have hkey : frame.index ∉ buf.frames.entries.map Prod.fst := by
    rw [hentries, List.map_map]
    intro hindex
    obtain ⟨other, hother, hsame⟩ := List.mem_map.mp hindex
    obtain ⟨j, -, hotherEq⟩ := hframed.mem_iff.mp (hknown other (List.mem_append_left _ hother))
    have hij : j = i := by
      rw [hotherEq, hframeEq] at hsame
      exact hsame
    rw [hotherEq, hij, ← hframeEq] at hother
    exact hnew hother
  have hset : (buf.frames.set frame.index frame.data).entries =
      (arrived m before ++ [frame]).map fun frame => (frame.index, frame.data) := by
    show OrderedMap.setList frame.index frame.data buf.frames.entries = _
    rw [OrderedMap.setList_of_not_mem hkey, hentries, List.map_append]
    rfl
  have hlength : (buf.frames.set frame.index frame.data).entries.length < frame.total ↔
      ¬ Part.Completes before ⟨m, some frame⟩ := by
    rw [hset, List.length_map, htotal, hcompletes]
    constructor
    · intro hshort hall
      have hle := (List.subperm_of_subset hframed.nodup hall).length_le
      omega
    · intro hmissing
      by_contra hlong
      exact hmissing fun other hother =>
        ((List.subperm_of_subset hnodup hknown).perm_of_length_le (not_lt.mp hlong)).mem_iff.mpr hother
  by_cases hlast : Part.Completes before ⟨m, some frame⟩
  · have hchunks : (List.range frame.total).mapM (buf.frames.set frame.index frame.data).get? =
        some ((List.range (sliceCount framingThreshold (codeUnits m.text))).map
          (slice framingThreshold (codeUnits m.text))) := by
      rw [htotal, hframed.length_eq]
      refine mapM_eq_some fun j hj => ?_
      have hslice := hcompletes.mp hlast _
        (hframed.mem_iff.mpr ⟨j, List.mem_range.mp hj, rfl⟩)
      rw [← OrderedMap.mem_entries_iff, hset]
      exact List.mem_map_of_mem hslice
    refine ⟨(bufs.set frame.frameId { buf with
      frames := buf.frames.set frame.index frame.data }).delete frame.frameId, ?_, ?_, ?_⟩
    · simp only [receive, hread, ← hbuf, if_neg (not_not.mpr hlast ∘ hlength.mp), hchunks,
        flatten_slices (show 0 < framingThreshold by decide), hparse, Part.output, if_pos hlast]
    · intro frameId hne
      rw [OrderedMap.get?_delete, OrderedMap.get?_set, hid, if_neg hne, if_neg hne.symm]
    · rw [hid, OrderedMap.get?_delete, if_pos rfl, if_pos hlast, Option.map_none]
  · refine ⟨bufs.set frame.frameId { buf with
      frames := buf.frames.set frame.index frame.data }, ?_, ?_, ?_⟩
    · simp only [receive, hread, ← hbuf, if_pos (hlength.mpr hlast), Part.output, if_neg hlast]
    · intro frameId hne
      rw [OrderedMap.get?_set, hid, if_neg hne.symm]
    · rw [hid, OrderedMap.get?_set, if_pos rfl, if_neg hlast, Option.map_some, hset]

/-- A whole text is yielded at once and leaves the buffers. -/
theorem receive_whole {m : Message} (hparse : P.parse (codeUnits m.text) = some .envelope)
    (bufs : FrameBuffers) :
    receive P bufs m.text = (.ok (some (codeUnits m.text)), bufs) := by
  simp only [receive, hparse]

/-! ## Whole runs -/

/-- What is promised of the messages on a connection: parsing gives back the frames that were
written, a text is no frame, and the frame ids that were drawn are distinct. -/
structure Sendable (P : FrameJson) (messages : List Message) : Prop where
  frames : ∀ m ∈ messages, ∀ frames, m.frames = some frames → ∀ frame ∈ frames,
    P.parse (codeUnits (P.stringify frame)) = some (.frame frame)
  texts : ∀ m ∈ messages, P.parse (codeUnits m.text) = some .envelope
  ids : ((messages.filter fun m => m.frames.isSome).map Message.frameId).Nodup

theorem Sendable.frameId_inj (hsendable : Sendable P messages) {m m' : Message}
    (hm : m ∈ messages) (hm' : m' ∈ messages) (hframes : m.frames.isSome = true)
    (hframes' : m'.frames.isSome = true) (hid : m.frameId = m'.frameId) : m = m' :=
  List.inj_on_of_nodup_map hsendable.ids (List.mem_filter.mpr ⟨hm, hframes⟩)
    (List.mem_filter.mpr ⟨hm', hframes'⟩) hid

/-- A part of another message changes nothing for a message. -/
theorem others_unchanged {m : Message} {part : Part} (hne : part.message ≠ m)
    (before : List Part) :
    arrived m (before ++ [part]) = arrived m before ∧
      ((∀ other ∈ m.parts, other ∈ before ++ [part]) ↔ ∀ other ∈ m.parts, other ∈ before) := by
  constructor
  · rw [arrived_append, if_neg hne, List.append_nil]
  · refine forall₂_congr fun other hother => ?_
    have hother' : other ≠ part := fun heq => hne (heq ▸ message_of_mem_parts m other hother)
    simp [hother']

/-- One message event of a run. -/
theorem receive_part (hsendable : Sendable P messages) {before : List Part} {part : Part}
    (hmem : part.message ∈ messages) (hpart : part ∈ part.message.parts)
    (hsent : ∀ part ∈ before, part ∈ part.message.parts)
    (honce : part.message.frames ≠ none →
      ((before ++ [part]).filter fun other => other.message = part.message).Nodup)
    {bufs : FrameBuffers} (hholds : Holds messages bufs before) :
    ∃ bufs', receive P bufs (part.data P) = (.ok (part.output before), bufs') ∧
      Holds messages bufs' (before ++ [part]) := by
  obtain ⟨m, frame⟩ := part
  dsimp only at hmem hpart honce
  cases hframes : m.frames with
  | none =>
      have hwhole : frame = none := by
        rw [Message.parts, hframes] at hpart
        simpa using hpart
      subst hwhole
      have hcompletes : Part.Completes before ⟨m, none⟩ := by
        intro other hother
        have hparts : m.parts = [⟨m, none⟩] := by rw [Message.parts, hframes]
        exact Or.inl (List.mem_singleton.mp (hparts ▸ hother))
      refine ⟨bufs, ?_, ?_, hholds.absent⟩
      · rw [Part.output, if_pos hcompletes]
        exact receive_whole (hsendable.texts m hmem) bufs
      · intro m' hm' frames' hframes'
        have hne : m ≠ m' := fun heq => by rw [heq, hframes'] at hframes; cases hframes
        obtain ⟨harrived, hall⟩ := @others_unchanged _ ⟨m, none⟩ hne before
        rw [hholds.kept m' hm' frames' hframes', harrived]
        simp only [hall]
  | some frames =>
      have hframed := Message.framed_of_eq_some hframes
      obtain ⟨known, hknown, heq⟩ := hframed.mem_parts.mp hpart
      rw [Part.mk.injEq] at heq
      obtain ⟨-, rfl⟩ := heq
      obtain ⟨bufs', hreceive, hother, hown⟩ := receive_frame hmem hframed hholds hsent hknown
        (honce (by simp [hframes])) (hsendable.frames m hmem frames hframes known hknown)
        (hsendable.texts m hmem)
      refine ⟨bufs', hreceive, ?_, ?_⟩
      · intro m' hm' frames' hframes'
        by_cases hsame : m = m'
        · subst hsame
          have hcompletes : Part.Completes before ⟨m, some known⟩ ↔
              ∀ part ∈ m.parts, part ∈ before ++ [⟨m, some known⟩] :=
            forall₂_congr fun part _ => by simp [or_comm]
          have harrived : arrived m before ++ [known] ≠ [] := by simp
          rw [hown, arrived_append, if_pos rfl]
          simp only [Option.toList_some, harrived, false_or, hcompletes]
        · have hid : m'.frameId ≠ m.frameId := fun hid => hsame
            (hsendable.frameId_inj hmem hm' (by simp [hframes]) (by simp [hframes']) hid.symm)
          obtain ⟨harrived, hall⟩ := @others_unchanged _ ⟨m, some known⟩ hsame before
          rw [hother _ hid, hholds.kept m' hm' frames' hframes', harrived]
          simp only [hall]
      · intro frameId hframeId
        rw [hother frameId (hframeId m hmem (by simp [hframes])).symm]
        exact hholds.absent frameId hframeId

/-- What the message events give, when some parts have arrived already. -/
def outputsFrom (before : List Part) : List Part → List (Option JsString)
  | [] => []
  | part :: rest => part.output before :: outputsFrom (before ++ [part]) rest

/-- The outputs of a run, and the buffers it leaves. -/
theorem receiveAll_eq (hsendable : Sendable P messages) {before rest : List Part}
    (hmem : ∀ part ∈ rest, part.message ∈ messages)
    (hsent : ∀ part ∈ before ++ rest, part ∈ part.message.parts)
    (honce : ∀ m, m.frames ≠ none →
      ((before ++ rest).filter fun other => other.message = m).Nodup)
    {bufs : FrameBuffers} (hholds : Holds messages bufs before) :
    ∃ bufs', receiveAll P bufs (rest.map (Part.data P)) =
        ((outputsFrom before rest).map Except.ok, bufs') ∧
      awaitResponse P bufs (rest.map (Part.data P)) =
        (outputsFrom before rest).reduceOption.head?.map Except.ok ∧
      Holds messages bufs' (before ++ rest) := by
  induction rest generalizing before bufs with
  | nil => exact ⟨bufs, rfl, rfl, by simpa using hholds⟩
  | cons part rest ih =>
      rw [List.forall_mem_cons] at hmem
      have hsplit : before ++ part :: rest = (before ++ [part]) ++ rest := by simp
      rw [hsplit] at hsent honce ⊢
      obtain ⟨next, hreceive, hnext⟩ := receive_part hsendable hmem.1
        (hsent part (by simp)) (fun other hother => hsent other (by simp [hother]))
        (fun hframes => (honce part.message hframes).sublist
          ((List.sublist_append_left _ _).filter _)) hholds
      obtain ⟨bufs', hrun, hawait, hafter⟩ := ih hmem.2 hsent honce hnext
      refine ⟨bufs', ?_, ?_, hafter⟩
      · rw [List.map_cons, receiveAll, hreceive]
        dsimp only
        rw [hrun]
        rfl
      · rw [List.map_cons, awaitResponse, hreceive, outputsFrom]
        cases houtput : part.output before with
        | none => exact hawait
        | some text => rfl

theorem outputsFrom_getElem? (before earlier : List Part) (part : Part) (later : List Part) :
    (outputsFrom before (earlier ++ part :: later))[earlier.length]? =
      some (part.output (before ++ earlier)) := by
  induction earlier generalizing before with
  | nil => simp [outputsFrom]
  | cons other earlier ih =>
      rw [List.cons_append, outputsFrom, List.length_cons, List.getElem?_cons_succ, ih]
      simp

/-- What is yielded are the texts of the messages as they are completed. -/
theorem reduceOption_outputsFrom (before rest : List Part) :
    (outputsFrom before rest).reduceOption =
      (Parcel.completed Message.parts Part.message before rest).map fun m => codeUnits m.text := by
  induction rest generalizing before with
  | nil => rfl
  | cons part rest ih =>
      rw [outputsFrom, Parcel.completed, List.map_append, ← ih]
      by_cases hlast : part.Completes before
      · rw [Part.output, if_pos hlast, if_pos hlast]
        rfl
      · rw [Part.output, if_neg hlast, if_neg hlast]
        rfl

/-- No buffer is left when all the parts have arrived. -/
theorem Holds.empty_of_all {bufs : FrameBuffers} {before : List Part}
    (hholds : Holds messages bufs before)
    (hall : ∀ m ∈ messages, ∀ part ∈ m.parts, part ∈ before) : bufs = .empty := by
  have hnone : ∀ frameId, bufs.get? frameId = none := by
    intro frameId
    by_cases hknown : ∃ m ∈ messages, m.frames ≠ none ∧ m.frameId = frameId
    · obtain ⟨m, hm, hframes, rfl⟩ := hknown
      obtain ⟨frames, hframes⟩ := Option.ne_none_iff_exists'.mp hframes
      have hkept := hholds.kept m hm frames hframes
      rw [if_pos (Or.inr (hall m hm))] at hkept
      exact Option.map_eq_none_iff.mp hkept
    · exact hholds.absent frameId fun m hm hframes hid => hknown ⟨m, hm, hframes, hid⟩
  obtain ⟨entries, nodup⟩ := bufs
  cases entries with
  | nil => rfl
  | cons entry rest =>
      have hentry := hnone entry.1
      simp [OrderedMap.get?, OrderedMap.lookupList] at hentry

/-- However the messages on a socket come in, frame by frame and each frame once, the event of the
last frame of a message yields its text and the others yield nothing: every text comes out once and
unchanged, and no buffer is left. A sender that waits gets the first of them. -/
theorem framing_round_trip (hsendable : Sendable P messages) {delivered : List Part}
    (hdelivered : delivered.Perm (messages.flatMap Message.parts)) :
    ∃ outputs : List (Option JsString),
      receiveAll P .empty (delivered.map (Part.data P)) = (outputs.map Except.ok, .empty) ∧
      (∀ earlier part later, delivered = earlier ++ part :: later →
        outputs[earlier.length]? = some (part.output earlier)) ∧
      outputs.reduceOption.Perm (messages.map fun m => codeUnits m.text) ∧
      awaitResponse P .empty (delivered.map (Part.data P)) =
        outputs.reduceOption.head?.map Except.ok := by
  have hpart : ∀ part ∈ delivered, part.message ∈ messages ∧ part ∈ part.message.parts := by
    intro part hpart
    obtain ⟨m, hm, hmem⟩ := List.mem_flatMap.mp (hdelivered.mem_iff.mp hpart)
    obtain rfl := message_of_mem_parts m part hmem
    exact ⟨hm, hmem⟩
  have hnodup : ∀ m : Message, m.frames ≠ none → m.parts.Nodup := by
    intro m hframes
    obtain ⟨frames, hframes⟩ := Option.ne_none_iff_exists'.mp hframes
    rw [Message.parts, hframes]
    exact (Message.framed_of_eq_some hframes).nodup.map fun a b heq => by simpa using heq
  have hcount : ∀ m : Message, m.frames ≠ none → messages.count m ≤ 1 := by
    intro m hframes
    have hfiltered := List.nodup_iff_count_le_one.mp (List.Nodup.of_map _ hsendable.ids) m
    have hcounted : List.count m (messages.filter fun m => m.frames.isSome) = messages.count m :=
      List.count_filter (Option.isSome_iff_ne_none.mpr hframes)
    exact hcounted ▸ hfiltered
  have honce : ∀ m, m.frames ≠ none →
      ((delivered).filter fun other => other.message = m).Nodup := by
    intro m hframes
    have hfilter := (hdelivered.filter fun other => other.message = m).trans
      (.of_eq (Parcel.filter_flatMap_parts message_of_mem_parts m))
    rw [hfilter.nodup_iff]
    rcases Nat.le_one_iff_eq_zero_or_eq_one.mp (hcount m hframes) with hzero | hone
    · simp [hzero]
    · simpa [hone] using hnodup m hframes
  obtain ⟨bufs, hrun, hawait, hafter⟩ := @receiveAll_eq _ _ hsendable [] _
    (fun part hmem => (hpart part hmem).1) (fun part hmem => (hpart part hmem).2) honce _ holds_nil
  have hbufs : bufs = .empty := hafter.empty_of_all fun m hm part hmem =>
    hdelivered.mem_iff.mpr (List.mem_flatMap.mpr ⟨m, hm, hmem⟩)
  refine ⟨outputsFrom [] delivered, hbufs ▸ hrun, ?_, ?_, hawait⟩
  · rintro earlier part later rfl
    exact outputsFrom_getElem? [] earlier part later
  · rw [reduceOption_outputsFrom]
    refine (Parcel.completed_perm message_of_mem_parts (fun m hm => ?_) hdelivered).map _
    cases hframes : m.frames with
    | none => exact Or.inl ⟨⟨m, none⟩, by rw [Message.parts, hframes]⟩
    | some frames =>
        have hsome : m.frames ≠ none := by simp [hframes]
        have hone : messages.count m = 1 :=
          le_antisymm (hcount m hsome) (List.count_pos_iff.mpr hm)
        refine Or.inr ⟨?_, hnodup m hsome, hone⟩
        intro hempty
        have hframed := Message.framed_of_eq_some hframes
        have hlength := congrArg List.length hempty
        rw [Message.parts, hframes] at hlength
        simp only [List.length_map, hframed.length_eq, List.length_nil] at hlength
        have hseveral := hframed.several
        omega

/-! ## Two texts that cross on a socket -/

namespace LongText

def message (letter : Char) (frameId : String) : Message where
  text := String.ofList (['\x7b', '"', 'a', '"', ':', '"'] ++
    List.replicate framingThreshold letter ++ ['"', '\x7d'])
  frameId := frameId

def first : Message := message 'a' "8f14e45f-ceea-467f-9c5b-1d2a3b4c5d6e"

def second : Message := message 'b' "c9f0f895-fb98-4b91-9a3d-5e6f7081a2b3"

def stringify (frame : Frame) : String :=
  Json.stringify NumberFormat.decimal (.obj [("_frame", .bool true), ("frameId", .str frame.frameId),
    ("index", .num frame.index), ("total", .num frame.total),
    ("data", .str (String.ofList (frame.data.map Char.ofNat)))])

/-- The frame of a message that is written so; any other text is an envelope. -/
def parse (units : JsString) : Parsed :=
  ((([first, second].flatMap fun m => m.frames.getD []).find? fun frame =>
    codeUnits (stringify frame) = units).map Parsed.frame).getD .envelope

def json : FrameJson := ⟨stringify, fun units => some (parse units)⟩

theorem frames_isSome (letter : Char) (frameId : String) :
    ∃ frames, (message letter frameId).frames = some frames := by
  have hlong : framingThreshold < (codeUnits (message letter frameId).text).length := by
    refine Nat.lt_of_lt_of_le ?_ (length_toList_le (message letter frameId).text)
    rw [message, String.toList_ofList]
    simp only [List.length_append, List.length_replicate]
    exact Nat.lt_add_of_pos_right (by decide : 0 < 2) |>.trans_le (by simp only [List.length]; omega)
  exact ⟨_, by rw [Message.frames, splitIntoFrames, if_neg (not_le.mpr hlong)]⟩

theorem stringify_ne_text (frame : Frame) (letter : Char) (frameId : String) :
    stringify frame ≠ (message letter frameId).text := by
  intro heq
  have hchars := congrArg String.toList heq
  simp [stringify, message, Json.stringify, Json.print, Json.printString] at hchars
  rw [show Json.escapeChar '_' = ['_'] from rfl] at hchars
  simp at hchars

theorem stringify_fields {frame other : Frame} (heq : stringify other = stringify frame) :
    other.frameId = frame.frameId ∧ other.index = frame.index := by
  have hsame := Json.stringify_injective NumberFormat.decimal heq
  simp only [Json.obj.injEq, List.cons.injEq, Prod.mk.injEq, Json.num.injEq, Json.str.injEq,
    true_and] at hsame
  exact ⟨hsame.1, by exact_mod_cast hsame.2.1⟩

theorem frameId_injective {m m' : Message} (hm : m ∈ [first, second]) (hm' : m' ∈ [first, second])
    (heq : m.frameId = m'.frameId) : m = m' := by
  have hids : first.frameId ≠ second.frameId := by decide
  simp only [List.mem_cons, List.not_mem_nil, or_false] at hm hm'
  obtain rfl | rfl := hm <;> obtain rfl | rfl := hm'
  · rfl
  · exact absurd heq hids
  · exact absurd heq.symm hids
  · rfl

theorem parse_stringify {m : Message} (hm : m ∈ [first, second]) {frames : List Frame}
    (hframes : m.frames = some frames) {frame : Frame} (hframe : frame ∈ frames) :
    parse (codeUnits (stringify frame)) = .frame frame := by
  have hsent : frame ∈ [first, second].flatMap fun m => m.frames.getD [] :=
    List.mem_flatMap.mpr ⟨m, hm, by simpa [hframes] using hframe⟩
  unfold parse
  cases hfind : ([first, second].flatMap fun m => m.frames.getD []).find? fun other =>
      codeUnits (stringify other) = codeUnits (stringify frame) with
  | none => exact absurd (List.find?_eq_none.mp hfind frame hsent) (by simp)
  | some other =>
      obtain ⟨hid, hindex⟩ :=
        stringify_fields (codeUnits_injective (by simpa using List.find?_some hfind))
      obtain ⟨m', hm', hother⟩ := List.mem_flatMap.mp (List.mem_of_find?_eq_some hfind)
      cases hframes' : m'.frames with
      | none => simp [hframes'] at hother
      | some frames' =>
          rw [hframes', Option.getD_some] at hother
          obtain ⟨i, -, rfl⟩ := (Message.framed_of_eq_some hframes).mem_iff.mp hframe
          obtain ⟨j, -, rfl⟩ := (Message.framed_of_eq_some hframes').mem_iff.mp hother
          obtain rfl := frameId_injective hm' hm hid
          obtain rfl : j = i := hindex
          rfl

theorem parse_text (letter : Char) (frameId : String) :
    parse (codeUnits (message letter frameId).text) = .envelope := by
  have hfind : ([first, second].flatMap fun m => m.frames.getD []).find? (fun frame =>
      codeUnits (stringify frame) = codeUnits (message letter frameId).text) = none := by
    rw [List.find?_eq_none]
    intro frame _ heq
    exact stringify_ne_text frame letter frameId (codeUnits_injective (by simpa using heq))
  rw [parse, hfind, Option.map_none, Option.getD_none]

theorem sendable : Sendable json [first, second] where
  frames m hm frames hframes frame hframe :=
    congrArg some (parse_stringify hm hframes hframe)
  texts m hm := by
    simp only [List.mem_cons, List.not_mem_nil, or_false] at hm
    obtain rfl | rfl := hm <;> exact congrArg some (parse_text _ _)
  ids := by
    have hids : ([first, second].map Message.frameId).Nodup := by decide
    exact hids.sublist (List.filter_sublist.map Message.frameId)

/-- All of the second text but its first frame, the first text with its frames in the wrong
order, and then that frame. -/
def crossed : List Part :=
  second.parts.drop 1 ++ first.parts.reverse ++ second.parts.take 1

theorem crossed_perm : crossed.Perm ([first, second].flatMap Message.parts) := by
  have hsecond : (second.parts.drop 1 ++ second.parts.take 1).Perm second.parts :=
    List.perm_append_comm.trans (.of_eq (List.take_append_drop 1 second.parts))
  rw [crossed, List.append_assoc]
  refine (List.perm_append_comm_assoc ..).trans ?_
  simpa using first.parts.reverse_perm.append hsecond

/-- Each text is there with the last of its frames. -/
theorem crossed_round_trip :
    (∃ frames, first.frames = some frames) ∧ (∃ frames, second.frames = some frames) ∧
      ∃ outputs : List (Option JsString),
        receiveAll json .empty (crossed.map (Part.data json)) = (outputs.map Except.ok, .empty) ∧
        (∀ earlier part later, crossed = earlier ++ part :: later →
          outputs[earlier.length]? = some (part.output earlier)) ∧
        outputs.reduceOption.Perm [codeUnits first.text, codeUnits second.text] ∧
        awaitResponse json .empty (crossed.map (Part.data json)) =
          outputs.reduceOption.head?.map Except.ok :=
  ⟨frames_isSome _ _, frames_isSome _ _, framing_round_trip sendable crossed_perm⟩

end LongText

end Coivitas.Communication
