/-
  NetBoot.Proofs.Net.Redirection — what the cached packets say behind a redirection, and what is left of them.

  Two fields of a packet tell a later stage of the boot where to go on: the name of the boot file and the
  address of the server. A redirection writes them in the acknowledgement and wipes them in the packets that
  would win over it (`Pointed`, `Wiped`); of a packet nothing else is touched (`SameElsewhere`), and of the
  state nothing but the two flags of those packets.

  The field of the name is written over to its end, so nothing of a longer name is left behind a shorter
  one (`Pointed.name`), and the packets that are wiped no longer count, so the server is found in the
  acknowledgement.
-/

import NetBoot.Net.PxePacket
import NetBoot.Proofs.Bytes

namespace NetBoot.Net

/-! ## One packet -/

namespace PxePacket

/-- The positions of the server's address. -/
def InServer (i : Nat) : Prop := 20 ≤ i ∧ i < 24

/-- The positions of the name of the boot file. -/
def InFile (i : Nat) : Prop := 108 ≤ i ∧ i < 236

instance (i : Nat) : Decidable (InServer i) := inferInstanceAs (Decidable (_ ∧ _))

instance (i : Nat) : Decidable (InFile i) := inferInstanceAs (Decidable (_ ∧ _))

/-- Outside of the two fields the packets are alike. -/
def SameElsewhere (p p' : PxePacket) : Prop := ∀ i, ¬InServer i → ¬InFile i → p'.raw[i]? = p.raw[i]?

/-- The packet leads nowhere. -/
def Wiped (p : PxePacket) : Prop := ∀ i, InServer i ∨ InFile i → p.raw[i]? = some 0

/-- The packet leads to a file on a server. -/
structure Pointed (p : PxePacket) (name : Bytes) (server : Ipv4) : Prop where
  server : p.server = server
  file : p.file = Bytes.untilNul (name.extract 0 128)
  /-- Behind the name its field is zero. -/
  name : ∀ i, i < 128 → p.raw[108 + i]? = some (name[i]?.getD 0)

variable (p : PxePacket) (name : Bytes) (server : Ipv4)

theorem getElem?_put (pos : Nat) (b : Bytes) (h : pos + b.size ≤ size) (i : Nat) :
    (p.put pos b).raw[i]? = if pos ≤ i ∧ i < pos + b.size then b[i - pos]? else p.raw[i]? := by
  have hsize := p.size_raw
  rw [size] at h
  rw [put, Bytes.getElem?_overwrite]
  by_cases hi : pos ≤ i ∧ i < pos + b.size
  · rw [if_pos hi, if_pos (by omega)]
  · rw [if_neg hi, if_neg (by omega)]

theorem getElem?_withServer (i : Nat) :
    (p.withServer server).raw[i]? = if InServer i then server.octets[i - 20]? else p.raw[i]? := by
  have hsize : server.octets.toArray.size = 4 := rfl
  rw [withServer, getElem?_put p serverOffset _ (by rw [hsize]; decide), hsize, List.getElem?_toArray]
  rfl

theorem getElem?_withFile (i : Nat) :
    (p.withFile name).raw[i]? = if InFile i then some (name[i - 108]?.getD 0) else p.raw[i]? := by
  have hsize : (name.resize fileLength).size = 128 := Bytes.size_resize name fileLength
  rw [withFile, getElem?_put p fileOffset _ (by rw [hsize]; decide), hsize, Bytes.getElem?_resize]
  by_cases hi : InFile i
  · have hlt := hi.2
    rw [if_pos hi, if_pos (show fileOffset ≤ i ∧ i < fileOffset + 128 from hi),
      if_pos (show i - fileOffset < fileLength by rw [fileOffset, fileLength]; omega)]
    rfl
  · rw [if_neg hi, if_neg (show ¬ (fileOffset ≤ i ∧ i < fileOffset + 128) from hi)]

theorem server_withServer : (p.withServer server).server = server := by
  simp [PxePacket.server, Array.getD_eq_getD_getElem?, getElem?_withServer, Ipv4.octets, InServer]

/-- The name is read back up to a zero byte, which may stand in it or behind it. -/
theorem untilNul_resize (b : Bytes) (n : Nat) : Bytes.untilNul (b.resize n) = Bytes.untilNul (b.extract 0 n) := by
  have hzeros : Bytes.untilNul (Bytes.zeros (n - b.size)) = #[] := by
    rw [Bytes.untilNul, Bytes.zeros, Array.takeWhile_replicate]
    rfl
  rw [Bytes.untilNul, Bytes.resize, Array.takeWhile_append]
  split
  · next hall =>
    have hself : Array.takeWhile (· != 0) (b.extract 0 n) = b.extract 0 n := by
      rw [← Array.toList_inj, Array.toList_takeWhile]
      rw [← Array.length_toList, Array.toList_takeWhile, ← Array.length_toList] at hall
      exact (List.takeWhile_prefix _).eq_of_length hall
    rw [Bytes.untilNul] at hzeros ⊢
    rw [hzeros, hself, Array.append_empty]
  · rfl

theorem file_eq (h : ∀ i, i < 128 → p.raw[108 + i]? = some (name[i]?.getD 0)) :
    p.file = Bytes.untilNul (name.extract 0 128) := by
  have hfield : p.raw.extract fileOffset (fileOffset + fileLength) = name.resize 128 := by
    have hsize := p.size_raw
    apply Array.ext_getElem?
    intro i
    rw [Array.getElem?_extract, Bytes.getElem?_resize, fileOffset, fileLength, hsize]
    by_cases hi : i < 128
    · rw [if_pos (by omega), if_pos hi, h i hi]
    · rw [if_neg (by omega), if_neg hi]
  rw [file, hfield, untilNul_resize]

theorem pointed : ((p.withFile name).withServer server).Pointed name server := by
  have hname (i : Nat) (hi : i < 128) :
      ((p.withFile name).withServer server).raw[108 + i]? = some (name[i]?.getD 0) := by
    rw [getElem?_withServer, if_neg (by rw [InServer]; omega), getElem?_withFile, if_pos (by rw [InFile]; omega),
      Nat.add_sub_cancel_left]
  exact ⟨server_withServer _ _, file_eq _ _ hname, hname⟩

theorem wiped : p.withoutParameters.Wiped := by
  have hoctets (i : Nat) (hi : i < 4) : Ipv4.unspecified.octets[i]? = some 0 := by
    match i with
    | 0 | 1 | 2 | 3 => rfl
  rintro i (hi | hi)
  · have hlt := hi.2
    rw [withoutParameters, getElem?_withServer, if_pos hi, hoctets _ (by omega)]
  · have hge := hi.1
    rw [withoutParameters, getElem?_withServer, if_neg (by rw [InServer]; omega), getElem?_withFile, if_pos hi]
    rfl

namespace SameElsewhere

variable {p : PxePacket}

theorem refl : SameElsewhere p p := fun _ _ _ => rfl

theorem trans {p' p'' : PxePacket} (h : SameElsewhere p p') (h' : SameElsewhere p' p'') : SameElsewhere p p'' :=
  fun i hserver hfile => (h' i hserver hfile).trans (h i hserver hfile)

theorem withServer (p : PxePacket) (server : Ipv4) : SameElsewhere p (p.withServer server) := by
  intro i hserver _
  rw [getElem?_withServer, if_neg hserver]

theorem withFile (p : PxePacket) (name : Bytes) : SameElsewhere p (p.withFile name) := by
  intro i _ hfile
  rw [getElem?_withFile, if_neg hfile]

theorem withoutParameters (p : PxePacket) : SameElsewhere p p.withoutParameters :=
  (withFile p #[]).trans (withServer _ _)

end SameElsewhere

end PxePacket

/-! ## All of the state -/

namespace BaseCodeMode

open PxePacket (SameElsewhere)

variable (m : BaseCodeMode)

/-- What a redirection keeps to, whether it succeeds or not: the two fields of the packets that it is about,
    and the flags of those that are withdrawn. -/
structure Frame (m m' : BaseCodeMode) : Prop where
  rest : { m' with
    proxyReceived := m.proxyReceived, replyReceived := m.replyReceived,
    ack := m.ack, proxy := m.proxy, reply := m.reply } = m
  ack : SameElsewhere m.ack m'.ack
  proxy : SameElsewhere m.proxy m'.proxy
  reply : SameElsewhere m.reply m'.reply
  /-- A packet that is not valid is left as it is. -/
  ack_of_invalid : m.ackReceived = 0 → m'.ack = m.ack
  proxy_of_invalid : m.proxyReceived = 0 → m'.proxy = m.proxy
  reply_of_invalid : m.replyReceived = 0 → m'.reply = m.reply

/-- What a later stage finds behind a redirection that succeeds. -/
structure Redirected (m m' : BaseCodeMode) (file : String) (server : Ipv4) : Prop where
  proxyReceived : m'.proxyReceived = 0
  replyReceived : m'.replyReceived = 0
  bootServer : m'.bootServer? = some server
  ack : m'.ack.Pointed (Bytes.ofString file) server
  proxy : m.proxyReceived ≠ 0 → m'.proxy.Wiped
  reply : m.replyReceived ≠ 0 → m'.reply.Wiped

/-- The state without the packets that win over the acknowledgement. -/
theorem withdrawn :
    m.withoutReply.withoutProxy = { m with
      proxyReceived := 0
      replyReceived := 0
      proxy := if m.proxyReceived ≠ 0 then m.proxy.withoutParameters else m.proxy
      reply := if m.replyReceived ≠ 0 then m.reply.withoutParameters else m.reply } := by
  have hreply : m.withoutReply = { m with
      replyReceived := 0
      reply := if m.replyReceived ≠ 0 then m.reply.withoutParameters else m.reply } := by
    unfold withoutReply
    by_cases h : m.replyReceived = 0
    · rw [if_neg (not_not_intro h), if_neg (not_not_intro h), ← h]
    · rw [if_pos h, if_pos h]
  rw [hreply]
  unfold withoutProxy
  dsimp only
  by_cases h : m.proxyReceived = 0
  · rw [if_neg (not_not_intro h), if_neg (not_not_intro h), ← h]
  · rw [if_pos h, if_pos h]

/-- A redirection is the withdrawal and, if the acknowledgement is valid, another acknowledgement. -/
theorem redirect_eq (file : String) (server : Ipv4) :
    m.redirect file server =
      if m.ackReceived = 0 then (.error .notFound, m.withoutReply.withoutProxy)
      else if server = .unspecified then
        (.error .invalidParameter, { m.withoutReply.withoutProxy with ack := m.ack.withFile (Bytes.ofString file) })
      else
        (.ok (), { m.withoutReply.withoutProxy with
          ack := (m.ack.withFile (Bytes.ofString file)).withServer server }) := by
  simp only [redirect, withdrawn, Ipv4.isUnspecified, beq_iff_eq]

theorem frame_withdrawn : Frame m m.withoutReply.withoutProxy := by
  rw [withdrawn]
  refine ⟨rfl, .refl, ?_, ?_, fun _ => rfl, fun h => if_neg (not_not_intro h), fun h => if_neg (not_not_intro h)⟩
  · dsimp only
    split
    · exact .withoutParameters _
    · exact .refl
  · dsimp only
    split
    · exact .withoutParameters _
    · exact .refl

theorem Frame.with_ack {m m' : BaseCodeMode} (h : Frame m m') {ack : PxePacket} (hvalid : m.ackReceived ≠ 0)
    (hack : SameElsewhere m.ack ack) : Frame m { m' with ack } :=
  { h with ack := hack, ack_of_invalid := fun hinvalid => absurd hinvalid hvalid }

theorem frame_redirect (file : String) (server : Ipv4) : Frame m (m.redirect file server).2 := by
  have hframe := m.frame_withdrawn
  rw [redirect_eq]
  by_cases hvalid : m.ackReceived = 0
  · rw [if_pos hvalid]
    exact hframe
  · rw [if_neg hvalid]
    by_cases hserver : server = .unspecified
    · rw [if_pos hserver]
      exact hframe.with_ack hvalid (.withFile _ _)
    · rw [if_neg hserver]
      exact hframe.with_ack hvalid ((SameElsewhere.withFile _ _).trans (.withServer _ _))

theorem redirect_eq_ok_iff (file : String) (server : Ipv4) :
    (m.redirect file server).1 = .ok () ↔ m.ackReceived ≠ 0 ∧ server ≠ .unspecified := by
  rw [redirect_eq]
  by_cases hvalid : m.ackReceived = 0
  · simp [hvalid]
  · by_cases hserver : server = .unspecified
    · simp [hvalid, hserver]
    · simp [hvalid, hserver]

theorem redirected {file : String} {server : Ipv4} (h : (m.redirect file server).1 = .ok ()) :
    Redirected m (m.redirect file server).2 file server := by
  obtain ⟨hvalid, hserver⟩ := (m.redirect_eq_ok_iff file server).mp h
  have hack := m.ack.pointed (Bytes.ofString file) server
  rw [redirect_eq, if_neg hvalid, if_neg hserver, withdrawn]
  refine ⟨rfl, rfl, ?_, hack, fun hproxy => ?_, fun hreply => ?_⟩
  · simp only [bootServer?, ne_eq, not_true_eq_false, if_false, hvalid, not_false_eq_true, if_true, hack.server]
  · rw [if_pos hproxy]
    exact m.proxy.wiped
  · rw [if_pos hreply]
    exact m.reply.wiped

/-- A redirection succeeds if there is an acknowledgement and the server has an address. The server is then
    found by it and by nothing else, the file is named as far as the field goes, and the packets that won over
    the acknowledgement lead nowhere. Whatever comes of it, nothing else is changed. -/
theorem redirect_redirects (file : String) (server : Ipv4) :
    ((m.redirect file server).1 = .ok () ↔ m.ackReceived ≠ 0 ∧ server ≠ .unspecified) ∧
      ((m.redirect file server).1 = .ok () → Redirected m (m.redirect file server).2 file server) ∧
      Frame m (m.redirect file server).2 :=
  ⟨m.redirect_eq_ok_iff file server, m.redirected, m.frame_redirect file server⟩

/-- Over an older name that fills its field, past an offer that is valid and an answer that is not. -/
theorem redirect_over_long_name :
    let full : PxePacket := ⟨Array.replicate 1472 0x61, Array.size_replicate⟩
    let m : BaseCodeMode := { ackReceived := 1, proxyReceived := 2, ack := full, proxy := full, reply := full }
    let server : Ipv4 := ⟨192, 168, 1, 20⟩
    let m' := (m.redirect "/pe.efi" server).2
    m.bootServer? = some ⟨0x61, 0x61, 0x61, 0x61⟩ ∧ m.ack.file.size = 128 ∧ (m.redirect "/pe.efi" server).1 = .ok () ∧
      m'.bootServer? = some server ∧ m'.ack.file = Bytes.ofString "/pe.efi" ∧ m'.proxyReceived = 0 ∧
      m'.proxy.raw[108]? = some 0 ∧ m'.reply = full := by
  intro full m server m'
  obtain ⟨hok, hredirected, hframe⟩ := redirect_redirects m "/pe.efi" server
  have hdone : (m.redirect "/pe.efi" server).1 = .ok () := hok.mpr (by decide)
  have h := hredirected hdone
  have hname : Bytes.untilNul ((Bytes.ofString "/pe.efi").extract 0 128) = Bytes.ofString "/pe.efi" := by decide +kernel
  have hfull : full.file = Array.replicate 128 0x61 := by
    simp [PxePacket.file, PxePacket.fileOffset, PxePacket.fileLength, Bytes.untilNul, full]
  have hbefore : m.bootServer? = some ⟨0x61, 0x61, 0x61, 0x61⟩ := by
    simp [bootServer?, PxePacket.server, full, m]
  refine ⟨hbefore, by rw [hfull]; rfl, hdone, h.bootServer, h.ack.file.trans hname, h.proxyReceived, ?_, ?_⟩
  · exact h.proxy (by decide) 108 (.inr (by decide))
  · exact hframe.reply_of_invalid rfl

end BaseCodeMode

end NetBoot.Net
