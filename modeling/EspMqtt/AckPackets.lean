import EspMqtt.UserPropertyBlock
import EspMqtt.VariableLength

/-! The acknowledgements of a v5 server: the reason codes and user properties that the client
takes out of them, in two walks over one header. -/
namespace EspMqtt

/-- What an acknowledgement is read into: the offset of the data pointer, its length and the
list of user properties. -/
structure AckData where
  data : Option ℕ
  length : ℕ
  userProperty : UserProperty
  deriving DecidableEq

/-- The label `err`. -/
def AckData.err : AckData := ⟨none, 0, none⟩

/-- `mqtt5_get_suback_data` and `mqtt5_get_unsuback_data`. -/
def mqtt5GetSubackData (fuel : ℕ) (buffer : List UInt8) (length : ℕ) (allocs : List Bool) :
    Access AckData :=
  (Access.ofRead (getVariableLenAt buffer 1 length)).bind fun r =>
    let offset := 1+r.2
    let totlen := r.1+offset
    if length < totlen then .returned .err
    else
      let offset := offset+2
      if offset < totlen then
        (Access.ofRead (getVariableLenAt buffer offset totlen)).bind fun r =>
          let offset := offset+r.2
          -- the field ends inside, so the difference does not wrap
          if totlen-offset < r.1 then .returned .err
          else
            (mqtt5MsgGetUserProperty fuel ⟨buffer, offset, r.1⟩ allocs).bind fun userProperty =>
              let offset := offset+r.1
              if offset < totlen then .returned ⟨some offset, totlen-offset, userProperty⟩
              else .returned .err
      else .returned .err

/-- `mqtt5_get_puback_data` and `mqtt5_get_pubcomp_data`; `userProperty` is what the caller's
handle holds before. -/
def mqtt5GetPubackData (fuel : ℕ) (buffer : List UInt8) (length : ℕ) (userProperty : UserProperty)
    (allocs : List Bool) : Access AckData :=
  (Access.ofRead (getVariableLenAt buffer 1 length)).bind fun r =>
    let offset := 1+r.2
    let totlen := r.1+offset
    let offset := offset+2
    if offset < totlen then
      let data := offset
      let offset := offset+1
      if offset < totlen then
        (Access.ofRead (getVariableLenAt buffer offset totlen)).bind fun r =>
          let offset := offset+r.2
          -- the handle of the caller stays as it is
          if totlen-offset < r.1 then .returned ⟨none, 0, userProperty⟩
          else
            (mqtt5MsgGetUserProperty fuel ⟨buffer, offset, r.1⟩ allocs).bind fun userProperty =>
              .returned ⟨some data, 1, userProperty⟩
      else .returned ⟨some data, 1, userProperty⟩
    else .returned ⟨none, 0, userProperty⟩

/-- `buffer[offset]` as a reason code. -/
def reasonCodeAt (buffer : List UInt8) (offset : ℕ) : Option ℤ := buffer[offset]?.map fun b => (b.toNat : ℤ)

/-- `mqtt5_msg_get_reason_code`; `none` is a read outside the buffer. -/
def mqtt5MsgGetReasonCode (buffer : List UInt8) (length : ℕ) : Option ℤ :=
  (getVariableLenAt buffer 1 length).bind fun r => buffer[0]?.bind fun first =>
    let offset := 1+r.2
    match mqttGetType first with
    | some .puback | some .pubrec | some .pubrel | some .pubcomp =>
      -- without a reason code it is success
      if r.1 = 2 then some 0
      else
        let offset := offset+2
        if length ≤ offset then some (-1) else reasonCodeAt buffer offset
    | some .suback | some .unsuback =>
      let offset := offset+2
      if length ≤ offset then some (-1)
      else
        (getVariableLenAt buffer offset length).bind fun r =>
          let offset := offset+r.2+r.1
          if length ≤ offset then some (-1) else reasonCodeAt buffer offset
    | some .disconnect => if length ≤ offset then some (-1) else reasonCodeAt buffer offset
    | _ => some (-1)

/-- All bytes of a packet: its Remaining Length says how many follow, in one to four bytes that
need not be the fewest. -/
structure CompletePacket where
  first : UInt8
  lens : List UInt8
  body : List UInt8
  lens_ok : Base128.IsField lens
  lens_le : lens.length ≤ 4
  body_length : body.length = Base128.value lens

namespace CompletePacket

def bytes (p : CompletePacket) : List UInt8 := p.first :: (p.lens ++ p.body)

variable (p : CompletePacket)

theorem bytes_length : p.bytes.length = 1+p.lens.length+p.body.length := by
  simp only [bytes, List.length_cons, List.length_append]
  omega

/-- A length field is looked for in the packet only. -/
theorem getVariableLenAt_bytes (offset : ℕ) :
    getVariableLenAt p.bytes offset p.bytes.length = some (getVariableLen p.bytes offset p.bytes.length) := by
  have hinside : getVariableLenAt (p.bytes.take p.bytes.length) offset p.bytes.length =
      some (getVariableLen p.bytes offset p.bytes.length) := getVariableLenAt_eq le_rfl
  rwa [List.take_length] at hinside

theorem getVariableLen_lens :
    getVariableLen p.bytes 1 p.bytes.length = (p.body.length, p.lens.length) := by
  have hlen := p.bytes_length
  have hdrop : p.bytes.drop 1 = p.lens ++ p.body := rfl
  rw [getVariableLen_field p.lens_ok p.lens_le hdrop (by omega), p.body_length]

theorem first_byte : p.bytes[0]? = some p.first := rfl

/-- The end of the fixed header and of the packet identifier behind it. -/
def idEnd : ℕ := 1+p.lens.length+2

/-- The property section that begins at an offset. -/
def sectionAt (offset : ℕ) : PropertySection :=
  ⟨p.bytes, offset+(getVariableLen p.bytes offset p.bytes.length).2,
    (getVariableLen p.bytes offset p.bytes.length).1⟩

theorem sectionAt_start_le {offset : ℕ} (h : offset ≤ p.bytes.length) :
    (p.sectionAt offset).start ≤ p.bytes.length :=
  (getVariableLen_inside p.bytes offset p.bytes.length).1 h

end CompletePacket

/-! What the three functions do with it. -/

namespace CompletePacket
variable (p : CompletePacket)

/-- The length behind the fixed header is the length of the packet. -/
theorem totlen_eq : p.body.length+(1+p.lens.length) = p.bytes.length := by
  rw [bytes_length]
  omega

theorem subackData_eq (fuel : ℕ) (allocs : List Bool) :
    mqtt5GetSubackData fuel p.bytes p.bytes.length allocs =
      let block := p.sectionAt p.idEnd
      if p.idEnd < p.bytes.length then
        if p.bytes.length-block.start < block.length then .returned .err
        else
          (mqtt5MsgGetUserProperty fuel block allocs).bind fun userProperty =>
            let offset := block.start+block.length
            if offset < p.bytes.length then .returned ⟨some offset, p.bytes.length-offset, userProperty⟩
            else .returned .err
      else .returned .err := by
  rw [mqtt5GetSubackData, p.getVariableLenAt_bytes 1, p.getVariableLen_lens, Access.ofRead_some,
    Access.returned_bind]
  dsimp only
  rw [p.totlen_eq, if_neg (lt_irrefl _), p.getVariableLenAt_bytes]
  rfl

theorem pubackData_eq (fuel : ℕ) (userProperty : UserProperty) (allocs : List Bool) :
    mqtt5GetPubackData fuel p.bytes p.bytes.length userProperty allocs =
      let block := p.sectionAt (p.idEnd+1)
      if p.idEnd < p.bytes.length then
        if p.idEnd+1 < p.bytes.length then
          if p.bytes.length-block.start < block.length then .returned ⟨none, 0, userProperty⟩
          else
            (mqtt5MsgGetUserProperty fuel block allocs).bind fun userProperty =>
              .returned ⟨some p.idEnd, 1, userProperty⟩
        else .returned ⟨some p.idEnd, 1, userProperty⟩
      else .returned ⟨none, 0, userProperty⟩ := by
  rw [mqtt5GetPubackData, p.getVariableLenAt_bytes 1, p.getVariableLen_lens, Access.ofRead_some,
    Access.returned_bind]
  dsimp only
  rw [p.totlen_eq, p.getVariableLenAt_bytes]
  rfl

/-- The packets of which `mqtt5_get_puback_data` takes the data. -/
def IsPublishAck : Prop :=
  mqttGetType p.first ∈ [some MsgType.puback, some .pubrec, some .pubrel, some .pubcomp]

/-- The packets of which `mqtt5_get_suback_data` takes the data. -/
def IsSubscribeAck : Prop := mqttGetType p.first ∈ [some MsgType.suback, some .unsuback]

theorem reasonCode_publishAck (h : p.IsPublishAck) :
    mqtt5MsgGetReasonCode p.bytes p.bytes.length =
      if p.body.length = 2 then some 0
      else if p.bytes.length ≤ p.idEnd then some (-1) else reasonCodeAt p.bytes p.idEnd := by
  rw [mqtt5MsgGetReasonCode, p.getVariableLenAt_bytes 1, p.getVariableLen_lens, Option.bind_some, p.first_byte,
    Option.bind_some]
  unfold IsPublishAck at h
  rw [List.mem_cons, List.mem_cons, List.mem_cons, List.mem_singleton] at h
  rcases h with h | h | h | h <;> rw [h] <;> rfl

theorem reasonCode_subscribeAck (h : p.IsSubscribeAck) :
    mqtt5MsgGetReasonCode p.bytes p.bytes.length =
      let block := p.sectionAt p.idEnd
      if p.bytes.length ≤ p.idEnd then some (-1)
      else if p.bytes.length ≤ block.start+block.length then some (-1)
      else reasonCodeAt p.bytes (block.start+block.length) := by
  rw [mqtt5MsgGetReasonCode, p.getVariableLenAt_bytes 1, p.getVariableLen_lens, Option.bind_some, p.first_byte,
    Option.bind_some]
  unfold IsSubscribeAck at h
  rw [List.mem_cons, List.mem_singleton] at h
  rcases h with h | h
  · rw [h]
    dsimp only
    rw [p.getVariableLenAt_bytes]
    rfl
  · rw [h]
    dsimp only
    rw [p.getVariableLenAt_bytes]
    rfl

/-! Every read is inside. -/

theorem reasonCodeAt_isSome {buffer : List UInt8} {offset : ℕ} (h : offset < buffer.length) :
    (reasonCodeAt buffer offset).isSome := by
  rw [reasonCodeAt, List.getElem?_eq_getElem h]
  rfl

/-- Whatever the packet is, its reason code is read from its bytes. -/
theorem reasonCode_isSome : (mqtt5MsgGetReasonCode p.bytes p.bytes.length).isSome := by
  have hcode {offset : ℕ} :
      (if p.bytes.length ≤ offset then some (-1 : ℤ) else reasonCodeAt p.bytes offset).isSome := by
    split
    · rfl
    · exact reasonCodeAt_isSome (by omega)
  by_cases hpublish : p.IsPublishAck
  · rw [p.reasonCode_publishAck hpublish]
    split
    · rfl
    · exact hcode
  by_cases hsubscribe : p.IsSubscribeAck
  · rw [p.reasonCode_subscribeAck hsubscribe]
    dsimp only
    split
    · rfl
    · exact hcode
  rw [mqtt5MsgGetReasonCode, p.getVariableLenAt_bytes 1, p.getVariableLen_lens, Option.bind_some, p.first_byte,
    Option.bind_some]
  unfold IsPublishAck at hpublish
  unfold IsSubscribeAck at hsubscribe
  dsimp only
  -- what is left is the code of a DISCONNECT, and the default
  split
  · rename_i h; exact absurd (by rw [h]; simp) hpublish
  · rename_i h; exact absurd (by rw [h]; simp) hpublish
  · rename_i h; exact absurd (by rw [h]; simp) hpublish
  · rename_i h; exact absurd (by rw [h]; simp) hpublish
  · rename_i h; exact absurd (by rw [h]; simp) hsubscribe
  · rename_i h; exact absurd (by rw [h]; simp) hsubscribe
  · exact hcode
  · rfl

end CompletePacket

/-! The walk inside the packet. -/

/-- The properties that begin here are walked: they are behind the packet identifier, and their
section fits. -/
structure CompletePacket.Walked (p : CompletePacket) (offset : ℕ) : Prop where
  behind : p.idEnd ≤ offset
  begins : offset < p.bytes.length
  fits : ¬ p.bytes.length-(p.sectionAt offset).start < (p.sectionAt offset).length

namespace CompletePacket
variable {p : CompletePacket} {offset fuel : ℕ} {allocs : List Bool} {r : AckData} {code : ℤ}

theorem Walked.section_inside (h : p.Walked offset) :
    (p.sectionAt offset).start+(p.sectionAt offset).length ≤ (p.sectionAt offset).buffer.length := by
  have hstart := p.sectionAt_start_le h.begins.le
  have hfits := h.fits
  have hbuffer : (p.sectionAt offset).buffer.length = p.bytes.length := rfl
  omega

theorem Walked.inside (h : p.Walked offset) (fuel : ℕ) (allocs : List Bool) :
    (mqtt5MsgGetUserProperty fuel (p.sectionAt offset) allocs).Inside :=
  PropertySection.userPropertyLoop_inside h.section_inside fuel 0 none allocs

/-- The walk over a section that 16 bits can count ends. -/
theorem Walked.returns (h : p.Walked offset) (hbody : p.body.length ≤ 65535) (hfuel : p.body.length < fuel)
    (allocs : List Bool) :
    ∃ list, mqtt5MsgGetUserProperty fuel (p.sectionAt offset) allocs = .returned list := by
  have hin := h.section_inside
  have hlen := p.bytes_length
  have hbehind := h.behind
  unfold idEnd at hbehind
  have hstart : offset ≤ (p.sectionAt offset).start := Nat.le_add_right _ _
  have hbuffer : (p.sectionAt offset).buffer.length = p.bytes.length := rfl
  -- the section is shorter than the body, so no offset wraps
  exact PropertySection.userPropertyLoop_returns ⟨Or.inr hin, by omega⟩ hin fuel 0 none allocs (by omega)

/-- What `mqtt5_get_suback_data` returns behind the walk. -/
def subackRest (p : CompletePacket) (userProperty : UserProperty) : AckData :=
  let offset := (p.sectionAt p.idEnd).start+(p.sectionAt p.idEnd).length
  if offset < p.bytes.length then ⟨some offset, p.bytes.length-offset, userProperty⟩ else .err

/-- It fails at once, or returns what is behind the walk. -/
theorem subackData_cases (p : CompletePacket) (fuel : ℕ) (allocs : List Bool) :
    mqtt5GetSubackData fuel p.bytes p.bytes.length allocs = .returned .err ∨
    (p.Walked p.idEnd ∧ mqtt5GetSubackData fuel p.bytes p.bytes.length allocs =
      (mqtt5MsgGetUserProperty fuel (p.sectionAt p.idEnd) allocs).bind fun userProperty =>
        .returned (p.subackRest userProperty)) := by
  rw [p.subackData_eq]
  dsimp only
  split
  · rename_i hid
    split
    · exact Or.inl rfl
    · rename_i hfits
      refine Or.inr ⟨⟨le_rfl, hid, hfits⟩, ?_⟩
      congr 1
      funext userProperty
      rw [subackRest, apply_ite Access.returned]
  · exact Or.inl rfl

/-- It finds no reason code, nothing behind it or a section that does not fit, or walks the section. -/
theorem pubackData_cases (p : CompletePacket) (fuel : ℕ) (userProperty : UserProperty) (allocs : List Bool) :
    mqtt5GetPubackData fuel p.bytes p.bytes.length userProperty allocs = .returned ⟨none, 0, userProperty⟩ ∨
    (p.idEnd < p.bytes.length ∧
      (mqtt5GetPubackData fuel p.bytes p.bytes.length userProperty allocs =
          .returned ⟨some p.idEnd, 1, userProperty⟩ ∨
        (p.Walked (p.idEnd+1) ∧ mqtt5GetPubackData fuel p.bytes p.bytes.length userProperty allocs =
          (mqtt5MsgGetUserProperty fuel (p.sectionAt (p.idEnd+1)) allocs).bind fun userProperty =>
            .returned ⟨some p.idEnd, 1, userProperty⟩))) := by
  rw [p.pubackData_eq]
  dsimp only
  split
  · rename_i hid
    split
    · rename_i hcode
      split
      · exact Or.inl rfl
      · rename_i hfits
        exact Or.inr ⟨hid, Or.inr ⟨⟨Nat.le_succ _, hcode, hfits⟩, rfl⟩⟩
    · exact Or.inr ⟨hid, Or.inl rfl⟩
  · exact Or.inl rfl

theorem subackData_inside (p : CompletePacket) (fuel : ℕ) (allocs : List Bool) :
    (mqtt5GetSubackData fuel p.bytes p.bytes.length allocs).Inside := by
  rcases p.subackData_cases fuel allocs with herr | ⟨hwalk,hcall⟩
  · rw [herr]
    exact Access.inside_returned _
  · rw [hcall]
    exact (hwalk.inside fuel allocs).bind fun _ _ => Access.inside_returned _

theorem pubackData_inside (p : CompletePacket) (fuel : ℕ) (userProperty : UserProperty) (allocs : List Bool) :
    (mqtt5GetPubackData fuel p.bytes p.bytes.length userProperty allocs).Inside := by
  rcases p.pubackData_cases fuel userProperty allocs with hnone | ⟨-,hcode | ⟨hwalk,hcall⟩⟩
  · rw [hnone]
    exact Access.inside_returned _
  · rw [hcode]
    exact Access.inside_returned _
  · rw [hcall]
    exact (hwalk.inside fuel allocs).bind fun _ _ => Access.inside_returned _

theorem subackData_returns (hbody : p.body.length ≤ 65535) (hfuel : p.body.length < fuel) (allocs : List Bool) :
    ∃ r, mqtt5GetSubackData fuel p.bytes p.bytes.length allocs = .returned r := by
  rcases p.subackData_cases fuel allocs with herr | ⟨hwalk,hcall⟩
  · exact ⟨_, herr⟩
  · obtain ⟨list,hlist⟩ := hwalk.returns hbody hfuel allocs
    exact ⟨_, hcall.trans (Access.bind_returned_eq.mpr ⟨list, hlist, rfl⟩)⟩

theorem pubackData_returns (hbody : p.body.length ≤ 65535) (hfuel : p.body.length < fuel)
    (userProperty : UserProperty) (allocs : List Bool) :
    ∃ r, mqtt5GetPubackData fuel p.bytes p.bytes.length userProperty allocs = .returned r := by
  rcases p.pubackData_cases fuel userProperty allocs with hnone | ⟨-,hcode | ⟨hwalk,hcall⟩⟩
  · exact ⟨_, hnone⟩
  · exact ⟨_, hcode⟩
  · obtain ⟨list,hlist⟩ := hwalk.returns hbody hfuel allocs
    exact ⟨_, hcall.trans (Access.bind_returned_eq.mpr ⟨list, hlist, rfl⟩)⟩

end CompletePacket

/-! Both walks arrive at one place. -/

/-- The data lie in the packet and begin with this code. -/
def AckData.Starts (r : AckData) (packet : List UInt8) (code : ℤ) : Prop :=
  ∀ offset, r.data = some offset →
    0 < r.length ∧ offset+r.length ≤ packet.length ∧ reasonCodeAt packet offset = some code

theorem AckData.starts_none {length : ℕ} {userProperty : UserProperty} {packet : List UInt8} {code : ℤ} :
    AckData.Starts ⟨none, length, userProperty⟩ packet code := fun _ h => by cases h

namespace CompletePacket
variable {p : CompletePacket} {fuel : ℕ} {allocs : List Bool} {r : AckData} {code : ℤ}

theorem subackRest_starts (h : p.IsSubscribeAck) (hwalk : p.Walked p.idEnd)
    (hcode : mqtt5MsgGetReasonCode p.bytes p.bytes.length = some code) (userProperty : UserProperty) :
    (p.subackRest userProperty).Starts p.bytes code := by
  rw [p.reasonCode_subscribeAck h] at hcode
  dsimp only at hcode
  rw [if_neg (Nat.not_le.mpr hwalk.begins)] at hcode
  -- both functions go on at the end of the section, if the packet does
  rw [subackRest]
  split
  · rename_i hdata
    rw [if_neg (Nat.not_le.mpr hdata)] at hcode
    intro offset hoffset
    cases hoffset
    exact ⟨Nat.sub_pos_of_lt hdata, (Nat.add_sub_cancel' hdata.le).le, hcode⟩
  · exact AckData.starts_none

theorem subackData_starts (h : p.IsSubscribeAck)
    (hcode : mqtt5MsgGetReasonCode p.bytes p.bytes.length = some code)
    (hr : mqtt5GetSubackData fuel p.bytes p.bytes.length allocs = .returned r) : r.Starts p.bytes code := by
  rcases p.subackData_cases fuel allocs with herr | ⟨hwalk,hcall⟩
  · rw [herr] at hr
    cases hr
    exact AckData.starts_none
  · obtain ⟨list,-,rfl⟩ := Access.bind_returned_eq.mp (hcall.symm.trans hr)
    exact subackRest_starts h hwalk hcode list

theorem pubackData_starts {userProperty : UserProperty} (h : p.IsPublishAck)
    (hcode : mqtt5MsgGetReasonCode p.bytes p.bytes.length = some code)
    (hr : mqtt5GetPubackData fuel p.bytes p.bytes.length userProperty allocs = .returned r) :
    r.Starts p.bytes code := by
  have hlen := p.bytes_length
  rw [p.reasonCode_publishAck h] at hcode
  have hstarts {list : UserProperty} (hid : p.idEnd < p.bytes.length) :
      AckData.Starts ⟨some p.idEnd, 1, list⟩ p.bytes code := by
    -- a body of two bytes would end with the identifier
    have hbody : ¬ p.body.length = 2 := by
      unfold idEnd at hid
      omega
    rw [if_neg hbody, if_neg (Nat.not_le.mpr hid)] at hcode
    intro offset hoffset
    cases hoffset
    exact ⟨Nat.one_pos, hid, hcode⟩
  rcases p.pubackData_cases fuel userProperty allocs with hnone | ⟨hid,hone | ⟨-,hcall⟩⟩
  · rw [hnone] at hr
    cases hr
    exact AckData.starts_none
  · rw [hone] at hr
    cases hr
    exact hstarts hid
  · obtain ⟨list,-,rfl⟩ := Access.bind_returned_eq.mp (hcall.symm.trans hr)
    exact hstarts hid

end CompletePacket

/-- A block on its own. -/
def wholeBlock (block : List UInt8) : PropertySection := ⟨block, 0, block.length⟩

/-- A property block that 16 bits can count is walked to its end and inside: with memory the pairs
of a sequence of Reason Strings and User Properties come out in their order, and of any other block
none.  The functions over a whole acknowledgement stay in the packet, and the data they return
begin with the reason code. -/
theorem ack_properties_and_codes :
    (∀ block : List UInt8, block.length ≤ 65535 → ∀ (allocs : List Bool) (fuel : ℕ), block.length < fuel →
      ∃ r, mqtt5MsgGetUserProperty fuel (wholeBlock block) allocs = .returned r ∧
        ((∀ a ∈ allocs, a = true) →
          (∀ ps, AckBlock block ps → r = appendPairs none (ps.filterMap AckProperty.pair)) ∧
          ((¬ ∃ ps, AckBlock block ps) → r = none))) ∧
    ∀ (p : CompletePacket) (fuel : ℕ) (userProperty : UserProperty) (allocs : List Bool),
      let suback := mqtt5GetSubackData fuel p.bytes p.bytes.length allocs
      let puback := mqtt5GetPubackData fuel p.bytes p.bytes.length userProperty allocs
      suback.Inside ∧ puback.Inside ∧
      (p.body.length ≤ 65535 → p.body.length < fuel →
        (∃ r, suback = .returned r) ∧ ∃ r, puback = .returned r) ∧
      ∃ code, mqtt5MsgGetReasonCode p.bytes p.bytes.length = some code ∧
        (p.IsSubscribeAck → ∀ r, suback = .returned r → r.Starts p.bytes code) ∧
        (p.IsPublishAck → ∀ r, puback = .returned r → r.Starts p.bytes code) := by
  constructor
  · intro block hblock allocs fuel hfuel
    have hbytes : (wholeBlock block).bytes = block := List.take_length
    have hfits : (wholeBlock block).Fits := ⟨Or.inr (Nat.zero_add _).le, Nat.lt_succ_of_le hblock⟩
    have hin : (wholeBlock block).start+(wholeBlock block).length ≤ (wholeBlock block).buffer.length :=
      (Nat.zero_add _).le
    obtain ⟨r,hr⟩ := PropertySection.userPropertyLoop_returns hfits hin fuel 0 none allocs hfuel
    refine ⟨r, hr, fun hmemory => ?_⟩
    have hspec := PropertySection.userPropertyLoop_block hfits hin fuel 0 none allocs (Nat.zero_le _) hfuel hmemory
    rw [List.drop_zero, hbytes, hr] at hspec
    exact ⟨fun ps hps => Access.returned.inj (hspec.1 ps hps), fun hnone => Access.returned.inj (hspec.2 hnone)⟩
  · intro p fuel userProperty allocs suback puback
    obtain ⟨code,hcode⟩ := Option.isSome_iff_exists.mp p.reasonCode_isSome
    exact ⟨p.subackData_inside fuel allocs, p.pubackData_inside fuel userProperty allocs,
      fun hbody hfuel => ⟨CompletePacket.subackData_returns hbody hfuel allocs,
        CompletePacket.pubackData_returns hbody hfuel userProperty allocs⟩,
      code, hcode, fun h r hr => CompletePacket.subackData_starts h hcode hr,
      fun h r hr => CompletePacket.pubackData_starts h hcode hr⟩

/-- A SUBACK with one user property and one reason code. -/
def subackPacket : CompletePacket where
  first := 0x90
  lens := [0x0b]
  body := [0, 1, 7, 0x26, 0, 1, 0x6b, 0, 1, 0x76, 2]
  lens_ok := by decide
  lens_le := by decide
  body_length := by decide

/-- A PUBACK with a reason code and no properties, and with a byte too many in its Remaining Length. -/
def pubackPacket : CompletePacket where
  first := 0x40
  lens := [0x83, 0]
  body := [0, 7, 0x10]
  lens_ok := by decide
  lens_le := by decide
  body_length := by decide

/-- The data of both begin with their codes, 2 and 16. -/
theorem ack_properties_and_codes_suback :
    mqtt5GetSubackData 64 subackPacket.bytes subackPacket.bytes.length [] =
      .returned ⟨some 12, 1, some [([0x6b], [0x76])]⟩ ∧
    AckData.Starts ⟨some 12, 1, some [([0x6b], [0x76])]⟩ subackPacket.bytes 2 ∧
    mqtt5GetPubackData 64 pubackPacket.bytes pubackPacket.bytes.length none [] =
      .returned ⟨some 5, 1, none⟩ ∧
    AckData.Starts ⟨some 5, 1, none⟩ pubackPacket.bytes 16 := by
  have hsuback : mqtt5GetSubackData 64 subackPacket.bytes subackPacket.bytes.length [] =
      .returned ⟨some 12, 1, some [([0x6b], [0x76])]⟩ := by decide +kernel
  have hpuback : mqtt5GetPubackData 64 pubackPacket.bytes pubackPacket.bytes.length none [] =
      .returned ⟨some 5, 1, none⟩ := by decide +kernel
  obtain ⟨-,-,-,code,hcode,hstarts,-⟩ := ack_properties_and_codes.2 subackPacket 64 none []
  obtain ⟨-,-,-,code',hcode',-,hstarts'⟩ := ack_properties_and_codes.2 pubackPacket 64 none []
  have h2 : code = 2 := Option.some.inj (hcode.symm.trans (by decide +kernel))
  have h16 : code' = 16 := Option.some.inj (hcode'.symm.trans (by decide +kernel))
  rw [h2] at hstarts
  rw [h16] at hstarts'
  have hissub : subackPacket.IsSubscribeAck := by
    unfold CompletePacket.IsSubscribeAck
    decide
  have hispub : pubackPacket.IsPublishAck := by
    unfold CompletePacket.IsPublishAck
    decide
  exact ⟨hsuback, hstarts hissub _ hsuback, hpuback, hstarts' hispub _ hpuback⟩

end EspMqtt
