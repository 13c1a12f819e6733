import Mathlib.Data.List.Infix

namespace SrtWhep

inductive SdpError
  | invalidSdp (message : String)
deriving DecidableEq, Repr

/-- The characters `str::trim` strips: those with the Unicode property
White_Space. -/
def isWhitespace (c : Char) : Bool :=
  let n := c.toNat
  (0x9 ≤ n ∧ n ≤ 0xd) ∨ n = 0x20 ∨ n = 0x85 ∨ n = 0xa0 ∨ n = 0x1680 ∨
    (0x2000 ≤ n ∧ n ≤ 0x200a) ∨ n = 0x2028 ∨ n = 0x2029 ∨ n = 0x202f ∨ n = 0x205f ∨ n = 0x3000

def startsWith (s start : String) : Bool := decide (start.toList <+: s.toList)

def contains (s text : String) : Bool := decide (text.toList <:+: s.toList)

namespace SessionDescription

def isEmptyOrWhitespace (s : String) : Bool := s.toList.all isWhitespace

def startsWithV0 (s : String) : Bool := startsWith s "v=0"

def sendonlyOrRecvonly (s : String) : Bool := contains s "a=sendonly" || contains s "a=recvonly"

def invalid (s : String) : Bool :=
  isEmptyOrWhitespace s || !startsWithV0 s || !sendonlyOrRecvonly s

end SessionDescription

/-- An SDP string that passed validation; there is no other way to build one. -/
structure SessionDescription where
  text : String
  valid : SessionDescription.invalid text = false
deriving DecidableEq, Repr

namespace SessionDescription

def parse (s : String) : Except SdpError SessionDescription :=
  if h : invalid s = false then .ok ⟨s, h⟩
  else .error (.invalidSdp "SDP must start with v=0 and contain a=sendonly or a=recvonly")

def isSendonly (d : SessionDescription) : Bool := contains d.text "a=sendonly"

theorem parse_eq_ok {s : String} {d : SessionDescription} : parse s = .ok d ↔ d.text = s := by
  unfold parse
  constructor
  · intro h
    split at h
    · cases h; rfl
    · cases h
  · rintro rfl
    rw [dif_pos d.valid]

end SessionDescription

/-- A description proven to advertise `a=sendonly`. -/
structure SdpOffer where
  sdp : SessionDescription
  sendonly : sdp.isSendonly = true
deriving DecidableEq, Repr

structure SdpAnswer where
  sdp : SessionDescription
  recvonly : sdp.isSendonly = false
deriving DecidableEq, Repr

instance : Inhabited SdpOffer := ⟨⟨"v=0 a=sendonly", by decide⟩, by decide⟩

instance : Inhabited SdpAnswer := ⟨⟨"v=0 a=recvonly", by decide⟩, by decide⟩

namespace SdpOffer

def parse (s : String) : Except SdpError SdpOffer :=
  match SessionDescription.parse s with
  | .error e => .error e
  | .ok sdp =>
    if h : sdp.isSendonly = true then .ok ⟨sdp, h⟩
    else .error (.invalidSdp "expected a sendonly offer, got a recvonly SDP")

theorem parse_eq_ok {s : String} {o : SdpOffer} : parse s = .ok o ↔ o.sdp.text = s := by
  constructor
  · intro h
    unfold parse at h
    split at h
    · cases h
    · rename_i sdp hs
      split at h
      · cases h; exact SessionDescription.parse_eq_ok.mp hs
      · cases h
  · intro h
    simp [parse, SessionDescription.parse_eq_ok.mpr h, o.sendonly]

end SdpOffer

namespace SdpAnswer

def parse (s : String) : Except SdpError SdpAnswer :=
  match SessionDescription.parse s with
  | .error e => .error e
  | .ok sdp =>
    if h : sdp.isSendonly = true then
      .error (.invalidSdp "expected a recvonly answer, got a sendonly SDP")
    else .ok ⟨sdp, Bool.not_eq_true _ ▸ h⟩

theorem parse_eq_ok {s : String} {a : SdpAnswer} : parse s = .ok a ↔ a.sdp.text = s := by
  constructor
  · intro h
    unfold parse at h
    split at h
    · cases h
    · rename_i sdp hs
      split at h
      · cases h
      · cases h; exact SessionDescription.parse_eq_ok.mp hs
  · intro h
    simp [parse, SessionDescription.parse_eq_ok.mpr h, a.recvonly]

end SdpAnswer

end SrtWhep
