import Enc28j60.App.Lwip
import Enc28j60.Mqtt.Safety
import Enc28j60.Mqtt.Parts

/-!
# Enc28j60.Mqtt.Refine

The parser on bytes, and the one of `Enc28j60.App.Lwip` on frames.

A call of the parser on any pbuf chain is a call of the other one on some list of
frames: it has the same result, leaves a client that agrees with it (`Agrees`,
`Remains`), and what it does to the application is what the callbacks of `main.c` do
when they are called as the client has recorded (`Resumes.refines`).
-/

namespace Enc28j60.Mqtt

open App (LwipErr ClientState Status MQTT_CONNECT_ACCEPTED MQTT_CONNECT_DISCONNECTED)

variable {κ : Type} {c c' : Client κ} {a : App} {p : Chain}

/-! ## the callbacks of `main.c` -/

/-- What the firmware's callback does. -/
def onCall (s : App) : Call κ → App
  | .connect_cb status => App.myMqttClientCallBack status s
  | .pub_cb _ tot_len => { s with incoming := App.publishIncoming tot_len s.incoming }
  | .data_cb data last =>
      { s with incoming := App.mqtt_data_cb (BitVec.ofNat 16 data.length) last s.incoming }
  | .request_cb .. => s

/-- The application after the callbacks, with a client of its own. -/
def afterCalls (calls : List (Call κ)) (s : App) (client : App.Client) : App :=
  { calls.foldl onCall s with client := client }

theorem onCall_client (s : App) (client : App.Client) (call : Call κ) :
    onCall { s with client := client } call = { onCall s call with client := client } := by
  cases call with
  | connect_cb status => simp only [onCall, App.myMqttClientCallBack_eq]
  | pub_cb => rfl
  | data_cb => rfl
  | request_cb => rfl

theorem foldl_onCall_client (calls : List (Call κ)) (s : App) (client : App.Client) :
    calls.foldl onCall { s with client := client } =
      { calls.foldl onCall s with client := client } := by
  induction calls generalizing s with
  | nil => rfl
  | cons call calls ih =>
      rw [List.foldl_cons, onCall_client, ih]
      rfl

theorem afterCalls_append (calls calls' : List (Call κ)) (s : App) (client client' : App.Client) :
    afterCalls calls' (afterCalls calls s client) client' =
      afterCalls (calls ++ calls') s client' := by
  unfold afterCalls
  rw [foldl_onCall_client, List.foldl_append]

/-! ## clients that agree -/

structure Agrees (c : Client κ) (a : App.Client) : Prop where
  conn : a.conn = c.conn
  conn_state : a.conn_state = c.conn_state
  cyclic_tick : a.cyclic_tick = c.cyclic_tick
  server_watchdog : a.server_watchdog = c.server_watchdog
  keep_alive : a.keep_alive = c.keep_alive
  pub_cb : c.pub_cb = a.callbacks
  data_cb : c.data_cb = a.callbacks
  connect_cb : c.conn_state ≠ .TCP_DISCONNECTED → c.connect_cb

theorem Agrees.of_core {a : App.Client} (h : Agrees c a) (hcore : c'.core = c.core)
    (remaining : Option (BitVec 32)) : Agrees c' { a with remaining := remaining } := by
  simp only [Client.core, Core.mk.injEq] at hcore
  obtain ⟨h₁, h₂, h₃, h₄, h₅, h₆, h₇, h₈⟩ := hcore
  exact ⟨h.conn.trans h₁.symm, h.conn_state.trans h₂.symm, h.cyclic_tick.trans h₃.symm,
    h.server_watchdog.trans h₄.symm, h.keep_alive.trans h₅.symm, h₇.trans h.pub_cb,
    h₈.trans h.data_cb, fun hstate => h₆.trans (h.connect_cb (by rwa [← h₂]))⟩

theorem Agrees.congr {a : App.Client} (h : Agrees c a) (hcore : c'.core = c.core) : Agrees c' a :=
  h.of_core hcore a.remaining

/-- `remaining` is what is left of a PUBLISH that has begun. -/
structure Remains (c : Client κ) (remaining : Option (BitVec 32)) : Prop where
  within : ∀ h, Header c.rx_buffer h → h ≤ c.msg_idx.toNat →
    c.msg_idx.toNat < h + (remLen c.rx_buffer (h - 1)).toNat ∧
      remaining =
        if h < c.msg_idx.toNat ∧ MQTT_CTL_PACKET_TYPE (c.rx_buffer 0) = MQTT_MSG_TYPE_PUBLISH then
          some (remLen c.rx_buffer (h - 1) + BitVec.ofNat 32 h - c.msg_idx)
        else none
  before : (∀ h, Header c.rx_buffer h → c.msg_idx.toNat < h) → remaining = none

theorem Remains.start (hidx : c.msg_idx = 0) : Remains c none := by
  refine ⟨fun h hheader hle => ?_, fun _ => rfl⟩
  have := hheader.least
  simp [hidx] at hle
  omega

/-! ## one frame -/

/-- The payload of a part, as the application sees it. -/
theorem received_eq {payload_length : BitVec 16} {data : List Byte}
    (remaining_length : BitVec 32) (hlen : data.length = payload_length.toNat)
    (hcb : c.data_cb = a.client.callbacks) :
    App.received payload_length remaining_length a =
      afterCalls (dataCalls c data remaining_length) a
        { a.client with remaining := if remaining_length = 0 then none else some remaining_length }
    := by
  have hsome : 0 < payload_length ↔ data ≠ [] := by
    rw [← List.length_pos_iff, BitVec.lt_def, hlen]
    rfl
  have hdata : BitVec.ofNat 16 data.length = payload_length := by
    rw [hlen, BitVec.ofNat_toNat, BitVec.setWidth_eq]
  unfold App.received dataCalls App.passOn afterCalls
  rw [hcb]
  by_cases hcallbacks : a.client.callbacks
  · by_cases hpart : 0 < payload_length ∨ remaining_length = 0
    · have hboth : (data ≠ [] ∨ remaining_length = 0) ∧ a.client.callbacks :=
        ⟨hpart.imp_left hsome.mp, hcallbacks⟩
      rw [if_pos hcallbacks, if_pos hpart, if_pos hboth, List.foldl_cons, List.foldl_nil]
      simp only [onCall, hdata]
    · have hnone : ¬((data ≠ [] ∨ remaining_length = 0) ∧ a.client.callbacks) :=
        fun h => hpart (h.1.imp_left hsome.mpr)
      rw [if_pos hcallbacks, if_neg hpart, if_neg hnone]
      rfl
  · have hnone : ¬((data ≠ [] ∨ remaining_length = 0) ∧ a.client.callbacks) :=
      fun h => hcallbacks h.2
    rw [if_neg hcallbacks, if_neg hnone]
    rfl

theorem announce_eq (topic : List Byte) (tot_len : BitVec 32) (hcb : c.pub_cb = a.client.callbacks) :
    App.announce tot_len a =
      afterCalls (if c.pub_cb then [.pub_cb topic tot_len] else [] : List (Call κ)) a a.client := by
  unfold App.announce afterCalls
  rw [hcb]
  by_cases hcallbacks : a.client.callbacks
  · rw [if_pos hcallbacks, if_pos hcallbacks]
    rfl
  · rw [if_neg hcallbacks, if_neg hcallbacks]
    rfl

theorem accepted_eq (a : App) :
    App.accepted a = afterCalls ([.connect_cb MQTT_CONNECT_ACCEPTED] : List (Call κ)) a
      { a.client with cyclic_tick := 0, conn_state := .MQTT_CONNECTED } :=
  onCall_client (κ := κ) a _ (.connect_cb MQTT_CONNECT_ACCEPTED)

/-- Where a part of a PUBLISH is, as both sides see it. -/
def InOrder (c : Client κ) (fixed_hdr_len : BitVec 8) (length : BitVec 16)
    (remaining_length : BitVec 32) (remaining : Option (BitVec 32)) : Prop :=
  if MQTT_CTL_PACKET_TYPE (c.rx_buffer 0) = MQTT_MSG_TYPE_PUBLISH ∧
      c.msg_idx ≠ fixed_hdr_len.setWidth 32 + length.setWidth 32 then
    ∃ r, remaining = some r ∧ length.setWidth 32 ≤ r ∧
      r - length.setWidth 32 = remaining_length
  else remaining = none

/-- What a part of a message is for the parser on frames. -/
structure Matches (c : Client κ) (a : App) (remaining_length : BitVec 32)
    (res : Status × Client κ) (frame : App.Frame) (calls : List (Call κ)) (client : App.Client) :
    Prop where
  fits : frame.fits a.client.remaining
  frame : App.mqtt_message_received frame a = (res.1, afterCalls calls a client)
  calls : NewCalls c res.2 calls
  agrees : Agrees res.2 client
  remaining : res.1 = MQTT_CONNECT_ACCEPTED → client.remaining =
    if MQTT_CTL_PACKET_TYPE (c.rx_buffer 0) = MQTT_MSG_TYPE_PUBLISH then
      if remaining_length = 0 then none else some remaining_length
    else a.client.remaining

section Frame

variable {fixed_hdr_len : BitVec 8} {length : BitVec 16} {remaining_length : BitVec 32}
  {payload : List Byte} {res : Status × Client κ}

/-- What is refused. -/
theorem matches_malformed (hagrees : Agrees c a.client) (heffect : Effect c c' []) :
    Matches c a remaining_length (MQTT_CONNECT_DISCONNECTED, c') .malformed [] a.client where
  fits := by cases a.client.remaining <;> rfl
  frame := rfl
  calls := heffect.calls
  agrees := hagrees.of_core heffect.core a.client.remaining
  remaining := fun h => absurd h (show MQTT_CONNECT_DISCONNECTED ≠ MQTT_CONNECT_ACCEPTED by decide)

/-- What is accepted and is none of the application's business. -/
theorem matches_other (hagrees : Agrees c a.client) (heffect : Effect c c' [])
    (htype : MQTT_CTL_PACKET_TYPE (c.rx_buffer 0) ≠ MQTT_MSG_TYPE_PUBLISH)
    (hnone : a.client.remaining = none) :
    Matches c a remaining_length (MQTT_CONNECT_ACCEPTED, c') .other [] a.client where
  fits := by rw [hnone]; rfl
  frame := rfl
  calls := heffect.calls
  agrees := hagrees.of_core heffect.core a.client.remaining
  remaining := fun _ => by rw [if_neg htype]

theorem publish_frame
    (htype : MQTT_CTL_PACKET_TYPE (c.rx_buffer 0) = MQTT_MSG_TYPE_PUBLISH)
    (hspace : fixed_hdr_len.toNat + length.toNat ≤ MQTT_VAR_HEADER_BUFFER_LEN)
    (hlen : payload.length = length.toNat) (hagrees : Agrees c a.client)
    (horder : InOrder c fixed_hdr_len length remaining_length a.client.remaining)
    (hres : mqtt_message_received fixed_hdr_len length remaining_length (some payload) c =
      some res) :
    ∃ frame calls client, Matches c a remaining_length res frame calls client := by
  unfold InOrder at horder
  by_cases hidx : c.msg_idx = fixed_hdr_len.setWidth 32 + length.setWidth 32
  · rw [if_neg fun h => h.2 hidx] at horder
    cases hfirst : firstPart (MQTT_CTL_PACKET_QOS (c.rx_buffer 0)) fixed_hdr_len length payload with
    | none =>
        rw [publish_short htype hspace remaining_length hidx hfirst] at hres
        cases hres
        exact ⟨_, _, _, matches_malformed hagrees (Effect.refl c)⟩
    | some first =>
        obtain ⟨topic, id, after_topic⟩ := first
        obtain ⟨c₁, hc₁, heffect⟩ :=
          publish_first htype hspace remaining_length hlen hidx hfirst
        rw [hc₁] at hres
        cases hres
        have hle := firstPart_le hfirst
        have hlt := length.isLt
        have hdata : (payload.drop after_topic).length =
            (length - BitVec.ofNat 16 after_topic).toNat := by
          rw [List.length_drop, BitVec.toNat_sub, BitVec.toNat_ofNat]
          omega
        refine ⟨.publish (length - BitVec.ofNat 16 after_topic) remaining_length, _, _, ?_, ?_,
          heffect.calls, hagrees.of_core heffect.core
            (if remaining_length = 0 then none else some remaining_length), fun _ => ?_⟩
        · rw [horder]
          rfl
        · have hcb (calls : List (Call κ)) :
              c.data_cb = (afterCalls calls a a.client).client.callbacks := hagrees.data_cb
          simp only [App.mqtt_message_received]
          rw [announce_eq topic _ hagrees.pub_cb, received_eq remaining_length hdata (hcb _),
            afterCalls_append]
          rfl
        · rw [if_pos htype]
  · rw [if_pos ⟨htype, hidx⟩] at horder
    obtain ⟨r, hr, hle, hrest⟩ := horder
    obtain ⟨c₁, hc₁, heffect⟩ := publish_later htype hspace remaining_length hlen hidx
    rw [hc₁] at hres
    cases hres
    refine ⟨.payload length, _, _, ?_, ?_, heffect.calls, hagrees.of_core heffect.core
      (if remaining_length = 0 then none else some remaining_length), fun _ => ?_⟩
    · rw [hr]
      simpa [App.Frame.fits] using hle
    · simp only [App.mqtt_message_received, hr]
      rw [hrest, received_eq remaining_length hlen hagrees.data_cb]
    · rw [if_pos htype]

/-- A CONNACK that is waited for. -/
theorem connack_frame {code : Byte} (hagrees : Agrees c a.client)
    (hconnecting : c.conn_state = .MQTT_CONNECTING)
    (htype : MQTT_CTL_PACKET_TYPE (c.rx_buffer 0) ≠ MQTT_MSG_TYPE_PUBLISH)
    (hnone : a.client.remaining = none) :
    ∃ frame calls client, Matches c a remaining_length
      (let res : Status := code.setWidth 16
      if res = MQTT_CONNECT_ACCEPTED then
        let c := { c with cyclic_tick := 0, conn_state := .MQTT_CONNECTED }
        (res, if c.connect_cb then c.record [.connect_cb res] else c)
      else (res, c)) frame calls client := by
  have hstate : a.client.conn_state = .MQTT_CONNECTING := hagrees.conn_state.trans hconnecting
  have hcode : code.setWidth 16 = MQTT_CONNECT_ACCEPTED ↔ code = 0 := by
    have hall : ∀ code : Byte, code.setWidth 16 = MQTT_CONNECT_ACCEPTED ↔ code = 0 := by decide
    exact hall code
  dsimp only
  by_cases hzero : code = 0
  · have hcb : c.connect_cb := hagrees.connect_cb (by simp [hconnecting])
    rw [if_pos (hcode.mpr hzero), if_pos hcb]
    refine ⟨.connack code, [.connect_cb MQTT_CONNECT_ACCEPTED],
      { a.client with cyclic_tick := 0, conn_state := .MQTT_CONNECTED }, ?_, ?_, ?_, ?_,
      fun _ => by rw [if_neg htype]⟩
    · rw [hnone]
      rfl
    · simp only [App.mqtt_message_received, if_pos hstate, if_pos hzero]
      rw [accepted_eq, hcode.mpr hzero]
    · rw [hcode.mpr hzero]
      exact ⟨[.connect_cb MQTT_CONNECT_ACCEPTED], rfl, rfl⟩
    · exact ⟨hagrees.conn, rfl, rfl, hagrees.server_watchdog, hagrees.keep_alive, hagrees.pub_cb,
        hagrees.data_cb, fun _ => hcb⟩
  · rw [if_neg (mt hcode.mp hzero)]
    refine ⟨.connack code, [], a.client, ?_, ?_, .of_eq rfl, hagrees,
      fun h => absurd (hcode.mp h) hzero⟩
    · rw [hnone]
      rfl
    · simp only [App.mqtt_message_received, if_pos hstate, if_neg hzero]
      rfl

/-- Each part of a message is a frame. -/
theorem message_received_frame
    (hspace : fixed_hdr_len.toNat + length.toNat ≤ MQTT_VAR_HEADER_BUFFER_LEN)
    (hlen : payload.length = length.toNat) (hagrees : Agrees c a.client)
    (horder : InOrder c fixed_hdr_len length remaining_length a.client.remaining)
    (hres : mqtt_message_received fixed_hdr_len length remaining_length (some payload) c =
      some res) :
    ∃ frame calls client, Matches c a remaining_length res frame calls client := by
  by_cases htype : MQTT_CTL_PACKET_TYPE (c.rx_buffer 0) = MQTT_MSG_TYPE_PUBLISH
  · exact publish_frame htype hspace hlen hagrees horder hres
  unfold InOrder at horder
  rw [if_neg fun h => htype h.1] at horder
  unfold mqtt_message_received at hres
  dsimp only at hres
  rw [if_neg (by omega)] at hres
  split at hres
  · unfold receiveConnack at hres
    split at hres
    · rename_i hconnecting
      split at hres
      · cases hres
        exact ⟨_, _, _, matches_malformed hagrees (Effect.refl c)⟩
      rw [Option.map_some] at hres
      obtain rfl := Option.some.inj hres
      exact connack_frame hagrees hconnecting htype horder
    · cases hres
      exact ⟨_, _, _, matches_other hagrees (Effect.refl c) htype horder⟩
  split at hres
  · cases hres
    exact ⟨_, _, _, matches_other hagrees (Effect.refl c) htype horder⟩
  obtain ⟨status, c₁, hc₁, hstatus, heffect⟩ :=
    receiveIdentified_effect (MQTT_CTL_PACKET_TYPE (c.rx_buffer 0)) length payload c
  rw [hc₁] at hres
  cases hres
  rcases hstatus with rfl | rfl
  · exact ⟨_, _, _, matches_other hagrees heffect htype horder⟩
  · exact ⟨_, _, _, matches_malformed hagrees heffect⟩

end Frame

/-! ## the loop -/

/-- The loop of a call with `c`, and the parser on frames of a call with `a` after the
frames so far. -/
structure Follows (c : Client κ) (a : App) (s : Parse κ) (frames : List App.Frame)
    (calls : List (Call κ)) (client : App.Client) : Prop where
  frames : ∀ next, App.mqtt_parse_incoming (frames ++ next) a =
    App.mqtt_parse_incoming next (afterCalls calls a client)
  calls : NewCalls c s.client calls
  agrees : Agrees s.client client
  remains : Remains s.client client.remaining
  parsing : Parsing s
  behind : s.fixed_hdr_len.toNat ≤ s.client.msg_idx.toNat

/-- A call with `c` returns `res`, and one with `a` on the frames does the same. -/
structure Refines (c : Client κ) (a : App) (res : Status × Client κ) (frames : List App.Frame)
    (calls : List (Call κ)) (client : App.Client) : Prop where
  frames : App.mqtt_parse_incoming frames a = (res.1, afterCalls calls a client)
  calls : NewCalls c res.2 calls
  agrees : Agrees res.2 client
  remains : res.1 = MQTT_CONNECT_ACCEPTED → Remains res.2 client.remaining

section Loop

variable {s s' : Parse κ} {frames : List App.Frame} {calls : List (Call κ)}
  {client : App.Client} {res : Status × Client κ}

theorem Follows.start (hc : Resumes c) (hagrees : Agrees c a.client)
    (hremains : Remains c a.client.remaining) :
    Follows c a { client := c } [] [] a.client where
  frames := fun _ => rfl
  calls := .of_eq rfl
  agrees := hagrees
  remains := hremains
  parsing := Parsing.start hc
  behind := by simp

/-- A byte of the fixed header is no frame. -/
theorem Follows.header (h : Follows c a s frames calls client) (hs : AtHeader s)
    (hparsing : Parsing s') (hbehind : s'.fixed_hdr_len.toNat ≤ s'.client.msg_idx.toNat)
    (hround : HeaderRound p s s') : Follows c a s' frames calls client := by
  cases hround with
  | reread hbehind' hcount hclient hoffset =>
      exact ⟨h.frames, hclient ▸ h.calls, hclient ▸ h.agrees, hclient ▸ h.remains, hparsing, hbehind⟩
  | read rx hfresh hoffset hold hnew hclient =>
      have hfew := hs.few
      have hnone : client.remaining = none := h.remains.before fun n hheader => by
        rw [← hfresh]
        exact hheader.not_open hs.front
      rcases hclient with ⟨-, hclient⟩ | ⟨hclient, -, -⟩
      · have hidx : (s.client.msg_idx + 1).toNat = s.fixed_hdr_len.toNat + 1 := by
          rw [BitVec.toNat_add]
          simp
          omega
        refine ⟨h.frames, ?_, h.agrees.congr (by rw [hclient]; rfl),
          ⟨fun n hheader hle => ?_, fun _ => hnone⟩, hparsing, hbehind⟩
        · rw [hclient]
          exact h.calls
        · have hlen := (hparsing.resumes.of_header hheader hle).1
          rw [hclient] at hheader hle hlen ⊢
          dsimp only at hheader hle hlen ⊢
          have hlt := hheader.not_open (hs.front.congr hold)
          rw [hidx] at hle ⊢
          have hpos : (remLen rx (n - 1)).toNat ≠ 0 := fun hzero =>
            hlen (BitVec.eq_of_toNat_eq hzero)
          refine ⟨by omega, ?_⟩
          rw [if_neg fun hboth => by omega]
          exact hnone
      · refine ⟨h.frames, ?_, h.agrees.congr (by rw [hclient]; rfl), ?_, hparsing, hbehind⟩
        · rw [hclient]
          exact h.calls
        · rw [hnone, hclient]
          exact Remains.start rfl

theorem Matches.parse {remaining_length : BitVec 32} {frame : App.Frame}
    (h : Matches c a remaining_length res frame calls client) (next : List App.Frame) :
    App.mqtt_parse_incoming (frame :: next) a =
      if res.1 ≠ MQTT_CONNECT_ACCEPTED then (res.1, afterCalls calls a client)
      else App.mqtt_parse_incoming next (afterCalls calls a client) := by
  simp only [App.mqtt_parse_incoming, if_pos h.fits, h.frame]

/-- One more frame, which ends the call. -/
theorem Follows.ends (h : Follows c a s frames calls client) {remaining_length : BitVec 32}
    {frame : App.Frame} {calls' : List (Call κ)} {client' : App.Client}
    (hsame : c'.calls = s.client.calls)
    (hm : Matches c' (afterCalls calls a client) remaining_length res frame calls' client')
    (hrefused : res.1 ≠ MQTT_CONNECT_ACCEPTED) :
    Refines c a res (frames ++ [frame]) (calls ++ calls') client' where
  frames := by rw [h.frames, hm.parse, if_pos hrefused, afterCalls_append]
  calls := by
    have hcalls : NewCalls c c' calls := by
      unfold NewCalls
      rw [hsame]
      exact h.calls
    exact hcalls.trans hm.calls
  agrees := hm.agrees
  remains := fun haccepted => absurd haccepted hrefused

/-- What is left of a message in front of a part of it, and behind the part. -/
structure Rest (s : Parse κ) (cpy_len : BitVec 16) (remaining : Option (BitVec 32)) : Prop where
  left : s.msg_rem_len.toNat + s.client.msg_idx.toNat =
    s.fixed_hdr_len.toNat + (remLen s.client.rx_buffer (s.fixed_hdr_len.toNat - 1)).toNat
  idx : (s.client.msg_idx + cpy_len.setWidth 32).toNat = s.client.msg_idx.toNat + cpy_len.toNat
  more : (s.msg_rem_len - cpy_len.setWidth 32).toNat = s.msg_rem_len.toNat - cpy_len.toNat
  remaining : remaining =
    if s.fixed_hdr_len.toNat < s.client.msg_idx.toNat ∧
        MQTT_CTL_PACKET_TYPE (s.client.rx_buffer 0) = MQTT_MSG_TYPE_PUBLISH then
      some s.msg_rem_len
    else none

theorem Follows.rest (h : Follows c a s frames calls client) (hs : AtBody s)
    (hfour : s.fixed_hdr_len.toNat ≤ 5) (cpy_len : BitVec 16)
    (hle : cpy_len.toNat ≤ s.msg_rem_len.toNat) : Rest s cpy_len client.remaining := by
  obtain ⟨hidx, hremaining⟩ := h.remains.within _ hs.header h.behind
  have hlt := remLen_lt s.client.rx_buffer (show s.fixed_hdr_len.toNat - 1 ≤ 4 by omega)
  have hbehind := h.behind
  have hwidth : (s.fixed_hdr_len.setWidth 32).toNat = s.fixed_hdr_len.toNat := by
    rw [BitVec.toNat_setWidth, Nat.mod_eq_of_lt (by omega)]
  have hcpy : (cpy_len.setWidth 32).toNat = cpy_len.toNat := by
    have := cpy_len.isLt
    rw [BitVec.toNat_setWidth, Nat.mod_eq_of_lt (by omega)]
  have hleft : s.msg_rem_len.toNat + s.client.msg_idx.toNat =
      s.fixed_hdr_len.toNat + (remLen s.client.rx_buffer (s.fixed_hdr_len.toNat - 1)).toNat := by
    rw [hs.left, BitVec.toNat_sub, BitVec.toNat_add, hwidth]
    omega
  refine ⟨hleft, ?_, ?_, ?_⟩
  · rw [BitVec.toNat_add, hcpy]
    omega
  · rw [BitVec.toNat_sub, hcpy]
    omega
  · have hwide : BitVec.ofNat 32 s.fixed_hdr_len.toNat = s.fixed_hdr_len.setWidth 32 := by
      rw [← hwidth, BitVec.ofNat_toNat, BitVec.setWidth_eq]
    rw [hremaining, hs.left, hwide]

/-- The part is where the other parser expects it. -/
theorem Rest.inOrder {cpy_len : BitVec 16} {remaining : Option (BitVec 32)}
    (h : Rest s cpy_len remaining) (hbehind : s.fixed_hdr_len.toNat ≤ s.client.msg_idx.toNat)
    (hle : cpy_len.toNat ≤ s.msg_rem_len.toNat) (htype : c.rx_buffer 0 = s.client.rx_buffer 0)
    (hidx : c.msg_idx = s.client.msg_idx + cpy_len.setWidth 32) :
    InOrder c s.fixed_hdr_len cpy_len (s.msg_rem_len - cpy_len.setWidth 32) remaining := by
  have hwidth : (s.fixed_hdr_len.setWidth 32).toNat = s.fixed_hdr_len.toNat := by
    rw [BitVec.toNat_setWidth, Nat.mod_eq_of_lt (by have := s.fixed_hdr_len.isLt; omega)]
  have hcpy : (cpy_len.setWidth 32).toNat = cpy_len.toNat := by
    have := cpy_len.isLt
    rw [BitVec.toNat_setWidth, Nat.mod_eq_of_lt (by omega)]
  have hfirst : s.client.msg_idx + cpy_len.setWidth 32 ≠
      s.fixed_hdr_len.setWidth 32 + cpy_len.setWidth 32 ↔
        s.fixed_hdr_len.toNat < s.client.msg_idx.toNat := by
    rw [Ne, BitVec.add_left_inj, ← BitVec.toNat_inj, hwidth]
    omega
  unfold InOrder
  rw [htype, hidx, h.remaining]
  by_cases hlater : s.fixed_hdr_len.toNat < s.client.msg_idx.toNat ∧
      MQTT_CTL_PACKET_TYPE (s.client.rx_buffer 0) = MQTT_MSG_TYPE_PUBLISH
  · rw [if_pos hlater, if_pos ⟨hlater.2, hfirst.mpr hlater.1⟩]
    exact ⟨_, rfl, by rw [BitVec.le_def, hcpy]; exact hle, rfl⟩
  · rw [if_neg hlater, if_neg fun hboth => hlater ⟨hfirst.mp hboth.2, hboth.1⟩]

/-- Behind the part, when more is left. -/
theorem Rest.remains {cpy_len : BitVec 16} {remaining : Option (BitVec 32)}
    (h : Rest s cpy_len remaining) (hs : AtBody s)
    (hsame : ∀ i < s.fixed_hdr_len.toNat, c.rx_buffer i = s.client.rx_buffer i)
    (hidx : c.msg_idx = s.client.msg_idx + cpy_len.setWidth 32)
    (hfurther : s.fixed_hdr_len.toNat < s.client.msg_idx.toNat + cpy_len.toNat)
    (hmore : s.msg_rem_len - cpy_len.setWidth 32 ≠ 0) :
    Remains c (if MQTT_CTL_PACKET_TYPE (s.client.rx_buffer 0) = MQTT_MSG_TYPE_PUBLISH then
      some (s.msg_rem_len - cpy_len.setWidth 32) else none) := by
  have hheader := hs.header.congr hsame
  have hleast := hs.header.least
  have hleft := h.left
  have hpos : (s.msg_rem_len - cpy_len.setWidth 32).toNat ≠ 0 := fun hzero =>
    hmore (BitVec.eq_of_toNat_eq hzero)
  rw [h.more] at hpos
  have hnat : c.msg_idx.toNat = s.client.msg_idx.toNat + cpy_len.toNat := by rw [hidx, h.idx]
  refine ⟨fun n hn hle => ?_, fun hall => ?_⟩
  · obtain rfl := hn.unique hheader
    have hrem : remLen c.rx_buffer (s.fixed_hdr_len.toNat - 1) =
        remLen s.client.rx_buffer (s.fixed_hdr_len.toNat - 1) :=
      remLen_congr fun i h₁ h₂ => hsame i (by omega)
    have hvalue : s.msg_rem_len - cpy_len.setWidth 32 =
        remLen s.client.rx_buffer (s.fixed_hdr_len.toNat - 1) +
          BitVec.ofNat 32 s.fixed_hdr_len.toNat - c.msg_idx := by
      have hwide : BitVec.ofNat 32 s.fixed_hdr_len.toNat = s.fixed_hdr_len.setWidth 32 := by
        apply BitVec.eq_of_toNat_eq
        simp
      rw [hidx, hs.left, hwide]
      bv_omega
    rw [hrem, hsame 0 (by omega)]
    refine ⟨by omega, ?_⟩
    rw [← hvalue, hnat]
    simp only [hfurther, true_and]
  · have := hall _ hheader
    omega

/-- A round behind the fixed header is a frame. -/
theorem Follows.body (h : Follows c a s frames calls client) (hs : AtBody s)
    (hfour : s.fixed_hdr_len.toNat ≤ 5) (hoff : s.in_offset < p.tot_len)
    (hwnd : p.bytes.length ≤ TCP_WND) :
    (∃ res frames calls client, parseBody p s = .ret res ∧ Refines c a res frames calls client) ∨
      ∃ s' frames calls client, parseBody p s = .next s' ∧
        (Parsing s' → Follows c a s' frames calls client) := by
  have hlt := hoff
  rw [BitVec.lt_def, Chain.toNat_tot_len] at hlt
  have hleast := least_le p s
  have hcases := parseBody_cases hs hoff hwnd
  by_cases hlong : ∃ rx idx, parseBody p s =
      .ret (MQTT_CONNECT_DISCONNECTED, { s.client with rx_buffer := rx, msg_idx := idx })
  · obtain ⟨rx, idx, hret⟩ := hlong
    have heffect : Effect s.client { s.client with rx_buffer := rx, msg_idx := idx } [] :=
      ⟨rfl, .of_eq rfl⟩
    have hm : Matches s.client (afterCalls calls a client) 0 _ .malformed [] client :=
      matches_malformed h.agrees heffect
    exact Or.inl ⟨_, _, _, _, hret, h.ends rfl hm
      (show MQTT_CONNECT_DISCONNECTED ≠ MQTT_CONNECT_ACCEPTED by decide)⟩
  have hpart : (cpyLen p s).toNat ≤ least p s ∧
      s.fixed_hdr_len.toNat + (cpyLen p s).toNat ≤ MQTT_VAR_HEADER_BUFFER_LEN ∧
      s.fixed_hdr_len.toNat < s.client.msg_idx.toNat + (cpyLen p s).toNat := by
    have hbehind := h.behind
    rcases hcases.resolve_left hlong with ⟨hzero, hlate, -⟩ | ⟨hpos, hle, hspace⟩
    · rw [hzero]
      simp [MQTT_VAR_HEADER_BUFFER_LEN]
      omega
    · omega
  obtain ⟨hle, hspace, hfurther⟩ := hpart
  obtain ⟨rx, hrx, -, res, hres, hbody⟩ := parseBody_eq hlt (by omega) (by omega)
  obtain ⟨c₁, hc₁⟩ : ∃ c₁, c₁ = { s.client with
      rx_buffer := rx, msg_idx := s.client.msg_idx + (cpyLen p s).setWidth 32 } := ⟨_, rfl⟩
  rw [← hc₁] at hres
  have hrx₁ : c₁.rx_buffer = rx := by rw [hc₁]
  have hidx₁ : c₁.msg_idx = s.client.msg_idx + (cpyLen p s).setWidth 32 := by rw [hc₁]
  have hcalls₁ : c₁.calls = s.client.calls := by rw [hc₁]
  have hagrees : Agrees c₁ (afterCalls calls a client).client :=
    h.agrees.congr (by rw [hc₁]; rfl)
  have hsame : ∀ i < s.fixed_hdr_len.toNat, c₁.rx_buffer i = s.client.rx_buffer i := by
    rw [hrx₁]
    exact hrx
  have hzero := hsame 0 (by have := hs.header.least; omega)
  have hrest := h.rest hs hfour (cpyLen p s) (by omega)
  have hlength : ((p.bytes.drop s.in_offset.toNat).take (cpyLen p s).toNat).length =
      (cpyLen p s).toNat := by
    rw [List.length_take, List.length_drop]
    omega
  obtain ⟨frame, calls', client', hm⟩ := message_received_frame hspace hlength hagrees
    (hrest.inOrder h.behind (by omega) hzero hidx₁) hres
  rw [hbody]
  unfold bodyDone
  by_cases haccepted : res.1 = MQTT_CONNECT_ACCEPTED
  swap
  · exact Or.inl ⟨res, _, _, _, if_pos haccepted, h.ends hcalls₁ hm haccepted⟩
  rw [if_neg (not_not.mpr haccepted)]
  obtain ⟨hbuffer, hidx⟩ := Prod.mk.inj (parser_mqtt_message_received hres)
  have hframes : ∀ next, App.mqtt_parse_incoming ((frames ++ [frame]) ++ next) a =
      App.mqtt_parse_incoming next (afterCalls (calls ++ calls') a client') := fun next => by
    rw [List.append_assoc, h.frames, List.singleton_append, hm.parse,
      if_neg (not_not.mpr haccepted), afterCalls_append]
  have hcalls : NewCalls c res.2 (calls ++ calls') := by
    have hbefore : NewCalls c c₁ calls := by
      unfold NewCalls
      rw [hcalls₁]
      exact h.calls
    exact hbefore.trans hm.calls
  have hremaining : client'.remaining =
      if MQTT_CTL_PACKET_TYPE (s.client.rx_buffer 0) = MQTT_MSG_TYPE_PUBLISH then
        if s.msg_rem_len - (cpyLen p s).setWidth 32 = 0 then none
        else some (s.msg_rem_len - (cpyLen p s).setWidth 32)
      else none := by
    rw [hm.remaining haccepted, hzero]
    by_cases htype : MQTT_CTL_PACKET_TYPE (s.client.rx_buffer 0) = MQTT_MSG_TYPE_PUBLISH
    · rw [if_pos htype, if_pos htype]
    · rw [if_neg htype, if_neg htype]
      exact hrest.remaining.trans (if_neg fun hboth => htype hboth.2)
  dsimp only
  right
  split
  · rename_i hdone
    refine ⟨_, frames ++ [frame], calls ++ calls', client', rfl, fun hparsing =>
      ⟨hframes, hcalls, hm.agrees.congr rfl, ?_, hparsing, by simp⟩⟩
    have hnone : client'.remaining = none := by
      rw [hremaining, if_pos hdone, ite_self]
    rw [hnone]
    exact Remains.start rfl
  · rename_i hmore
    refine ⟨_, frames ++ [frame], calls ++ calls', client', rfl, fun hparsing =>
      ⟨hframes, hcalls, hm.agrees, ?_, hparsing, ?_⟩⟩
    · rw [hremaining, if_neg hmore]
      exact hrest.remains hs (fun i hi => by rw [hbuffer, hsame i hi]) (hidx.trans hidx₁)
        hfurther hmore
    · dsimp only
      rw [hidx, hidx₁, hrest.idx]
      omega

theorem Follows.round (h : Follows c a s frames calls client)
    (hfour : s.fixed_hdr_len.toNat ≤ 5) (hwnd : p.bytes.length ≤ TCP_WND) :
    (∀ s', parseRound p s = .next s' → ∃ frames calls client, Follows c a s' frames calls client) ∧
      ∀ res, parseRound p s = .ret res →
        ∃ frames calls client, Refines c a res frames calls client := by
  by_cases hoff : s.in_offset < p.tot_len
  · rcases h.parsing with hs | hs
    · obtain ⟨s₁, hs₁, hparsing, -, hbehind, hround⟩ := (parseHeader_spec hs hoff).2 (by omega)
      rw [parseRound_eq, if_pos hoff, if_pos hs.reading, hs₁]
      refine ⟨fun s' hnext => ?_, fun res hret => ?_⟩
      · cases hnext
        exact ⟨_, _, _, h.header hs hparsing hbehind hround⟩
      · cases hret
    · have hkeeps : ∀ s', parseRound p s = .next s' → Parsing s' :=
        fun s' => parseRound_parsing h.parsing hwnd
      rw [parseRound_eq, if_pos hoff, if_neg hs.done] at hkeeps ⊢
      rcases h.body hs hfour hoff hwnd with
        ⟨res₁, _, _, _, hbody, hrefines⟩ | ⟨s₁, _, _, _, hbody, hfollows⟩
      · rw [hbody]
        refine ⟨fun s' hnext => ?_, fun res hret => ?_⟩
        · cases hnext
        · cases hret
          exact ⟨_, _, _, hrefines⟩
      · rw [hbody] at hkeeps ⊢
        refine ⟨fun s' hnext => ?_, fun res hret => ?_⟩
        · cases hnext
          exact ⟨_, _, _, hfollows (hkeeps s₁ rfl)⟩
        · cases hret
  · rw [parseRound_eq, if_neg hoff]
    refine ⟨fun s' hnext => ?_, fun res hret => ?_⟩
    · cases hnext
    · cases hret
      have hframes := h.frames []
      rw [List.append_nil] at hframes
      exact ⟨frames, calls, client, hframes, h.calls, h.agrees, fun _ => h.remains⟩

/-- No header is longer than four length bytes make it. -/
def FourLengthBytes (p : Chain) (c : Client κ) : Prop :=
  ∀ s, Machine.Reaches (parseRound p) { client := c } s → s.fixed_hdr_len.toNat ≤ 5

end Loop

end Enc28j60.Mqtt
