import GoNomad.Policy.PathSecrets
import GoNomad.Server.FsService

/-!
# Reading text

A file is cut at a number of bytes and then asked to be text.  So a text that is
longer is read only if the cut falls between two of its characters.

* `ofUtf8_slice` — what is left of a text after the cut;
* `text_read_iff` — which text files are read;
* `text_refused` — a text file that is not.
-/

namespace Server

open Proto Policy UnixFs

namespace FsService

variable {service : FsService} {volume : Volume} {grant : Option DeviceGrant} {requested : String}
  {r : ResolvedPath} {s text : String}

/-- A text file is read as such: the answer is a front of it, whole where the file
is within the cap, and says whether it is all. -/
def ReadsText (service : FsService) (volume : Volume) (grant : Option DeviceGrant)
    (requested s : String) : Prop :=
  ∃ c, service.read volume grant requested = .ok c ∧ c.text.toList <+: s.toList ∧
    ((utf8 s).length ≤ maxReadBytes → c.text = s) ∧
    (c.truncated = true ↔ (utf8 c.text).length < (utf8 s).length)

/-- What is sent of a file. -/
def slice (bytes : List UInt8) : List UInt8 := bytes.take maxReadBytes

/-- What an authorised file is answered with. -/
theorem read_of_authorize {bytes : List UInt8}
    (hauthorized : service.authorize volume.tree grant .fsRead "fs.read" requested = .ok r)
    (hfile : volume.read r.path = some bytes) :
    service.read volume grant requested =
      match ofUtf8 (slice bytes) with
      | none => .error (.badRequest "file is not valid UTF-8 text")
      | some text => .ok ⟨requested, text, .of (slice bytes), maxReadBytes < bytes.length⟩ := by
  have hslice : (if decide (maxReadBytes < bytes.length) = true then bytes.take maxReadBytes
      else bytes) = slice bytes := by
    unfold slice
    split_ifs with htruncated
    · rfl
    · rw [decide_eq_true_eq, Nat.not_lt] at htruncated
      exact (List.take_of_length_le htruncated).symm
  unfold read
  rw [hauthorized, Except.ok_bind, hfile]
  dsimp only
  rewrite [hslice]
  rfl

/-- The byte behind the cap starts a character, if there is one. -/
def CutsBetween (s : String) : Prop := ∀ b, (utf8 s)[maxReadBytes]? = some b → b.IsUTF8FirstByte

/-- A text within the cap is not cut. -/
theorem slice_of_le (h : (utf8 s).length ≤ maxReadBytes) : slice (utf8 s) = utf8 s :=
  List.take_of_length_le h

theorem cutsBetween_of_le (h : (utf8 s).length ≤ maxReadBytes) : CutsBetween s := by
  intro b hb
  rw [List.getElem?_eq_none h] at hb
  cases hb

/-- **What is left of a text** after the cut is a front of it, all of it or as much
as the cap takes. -/
theorem ofUtf8_slice (h : ofUtf8 (slice (utf8 s)) = some text) :
    ∃ rest, s = text ++ rest ∧ (utf8 text).length = min maxReadBytes (utf8 s).length := by
  by_cases hle : (utf8 s).length ≤ maxReadBytes
  · rw [slice_of_le hle, ofUtf8_utf8] at h
    obtain rfl := Option.some.inj h
    exact ⟨"", String.append_empty.symm, (Nat.min_eq_right hle).symm⟩
  · have hcap : maxReadBytes ≤ (utf8 s).length := by omega
    obtain ⟨rest, hrest, hlength⟩ := (ofUtf8_take_iff hcap).mp h
    exact ⟨rest, hrest, hlength.trans (Nat.min_eq_left hcap).symm⟩

/-- Something is left exactly if the cut falls between two characters. -/
theorem slice_isSome_iff : (∃ text, ofUtf8 (slice (utf8 s)) = some text) ↔ CutsBetween s := by
  by_cases hle : (utf8 s).length ≤ maxReadBytes
  · rw [slice_of_le hle, ofUtf8_utf8]
    exact ⟨fun _ => cutsBetween_of_le hle, fun _ => ⟨s, rfl⟩⟩
  · have hcap : maxReadBytes ≤ (utf8 s).length := by omega
    have hcut := @exists_append_iff s maxReadBytes
    rw [and_iff_right hcap] at hcut
    unfold CutsBetween
    rw [← hcut]
    exact exists_congr fun text => ofUtf8_take_iff hcap

/-- **Text is read where the cut falls between two characters**: an authorised file
of text is answered with a front of it if and only if the byte behind the cap is the
first of a character, or there is none. -/
theorem text_read_iff (service : FsService) (volume : Volume) (grant : Option DeviceGrant)
    (requested s : String) (r : ResolvedPath)
    (hauthorized : service.authorize volume.tree grant .fsRead "fs.read" requested = .ok r)
    (hfile : volume.read r.path = some (utf8 s)) :
    ReadsText service volume grant requested s ↔
      ∀ b, (utf8 s)[maxReadBytes]? = some b → b.IsUTF8FirstByte := by
  have hread := read_of_authorize hauthorized hfile
  unfold ReadsText
  rw [hread]
  constructor
  · rintro ⟨c, hok, -⟩
    refine slice_isSome_iff.mp ?_
    cases htext : ofUtf8 (slice (utf8 s)) with
    | none =>
        rw [htext] at hok
        cases hok
    | some text => exact ⟨text, rfl⟩
  · intro hcut
    obtain ⟨text, htext⟩ := slice_isSome_iff.mpr hcut
    obtain ⟨rest, hrest, hlength⟩ := ofUtf8_slice htext
    rw [htext]
    refine ⟨_, rfl, ?_, fun hle => ?_, ?_⟩
    · rw [hrest, String.toList_append]
      exact List.prefix_append _ _
    · rw [slice_of_le hle, ofUtf8_utf8] at htext
      exact (Option.some.inj htext).symm
    · rw [decide_eq_true_eq, hlength]
      omega

/-! ### A file in the workspace -/

/-- The name `t`. -/
def textName : Name := ⟨[0x74], by decide⟩

/-- `/w/t` holds these bytes. -/
def sampleVolume (bytes : List UInt8) : Volume where
  tree := PolicyEngine.workspace [(textName, .file)]
  inode _ := ⟨true, bytes, .ofNat bytes.length, none⟩

/-- A device with `fsRead`. -/
def sampleGrant : DeviceGrant := ⟨.replicate 7, ⟨1⟩, false⟩

/-- It may read what the guard of the workspace resolves to something public. -/
theorem authorize_sample {tree : Snapshot} {method : String} (hnull : '\x00' ∉ requested.toList)
    (hresolve : PathGuard.sampleGuard.resolve tree (utf8 requested) = .ok r)
    (hpublic : PolicyEngine.sampleEngine.denylist.isSecret r.path = false) :
    (⟨PolicyEngine.sampleEngine⟩ : FsService).authorize tree (some sampleGrant) .fsRead method
      requested = .ok r := by
  have hallows : Allows (some sampleGrant) .fsRead := ⟨sampleGrant, rfl, rfl, by decide⟩
  have hquiet : Capability.fsRead.requiresPresence ≠ true := by decide
  unfold authorize
  rw [if_neg (by simpa using hnull)]
  apply PolicyEngine.authorizePath_iff.mpr
  refine ⟨⟨hallows, fun h => absurd h hquiet⟩, hresolve, fun h => ?_⟩
  rw [hpublic] at h
  cases h

theorem sample_authorize (bytes : List UInt8) :
    (⟨PolicyEngine.sampleEngine⟩ : FsService).authorize (sampleVolume bytes).tree
      (some sampleGrant) .fsRead "fs.read" "/w/t" = .ok ⟨utf8 "/w/t", utf8 "/w", true⟩ :=
  authorize_sample (by decide) (by rfl) (by decide)

theorem sample_read (bytes : List UInt8) : (sampleVolume bytes).read (utf8 "/w/t") = some bytes := by
  rfl

/-- A short text is read. -/
theorem text_read_short : ReadsText ⟨PolicyEngine.sampleEngine⟩ (sampleVolume (utf8 "aé"))
    (some sampleGrant) "/w/t" "aé" := by
  refine (text_read_iff _ _ _ _ _ _ (sample_authorize _) (sample_read _)).mpr ?_
  exact cutsBetween_of_le (by decide)

/-- So many times `a`, and then a character of two bytes. -/
def longText (n : Nat) : String := String.ofList (List.replicate n 'a' ++ ['é'])

theorem utf8_longText (n : Nat) : utf8 (longText n) = List.replicate n 0x61 ++ [0xc3, 0xa9] := by
  unfold longText
  rw [utf8_ofList, List.flatMap_append]
  congr 1
  induction n with
  | zero => rfl
  | succ n ih => rw [List.replicate_succ, List.flatMap_cons, ih]; rfl

/-- **A text file is refused** that is one byte longer than the cap, where the last
character takes two. -/
theorem text_refused :
    ¬ ∀ (service : FsService) (volume : Volume) (grant : Option DeviceGrant) (requested s : String)
      (r : ResolvedPath),
      service.authorize volume.tree grant .fsRead "fs.read" requested = .ok r →
      volume.read r.path = some (utf8 s) → ReadsText service volume grant requested s := by
  intro hall
  obtain ⟨c, hok, -⟩ := hall _ _ _ _ (longText (maxReadBytes - 1)) _ (sample_authorize _)
    (sample_read _)
  rw [read_of_authorize (sample_authorize _) (sample_read _)] at hok
  have hbehind : (utf8 (longText (maxReadBytes - 1)))[maxReadBytes]? = some 0xa9 := by
    rw [utf8_longText, List.getElem?_append_right (by simp), List.length_replicate]
    rfl
  cases htext : ofUtf8 (slice (utf8 (longText (maxReadBytes - 1)))) with
  | none =>
      rw [htext] at hok
      cases hok
  | some text => exact absurd (slice_isSome_iff.mp ⟨text, htext⟩ _ hbehind) (by decide)

end FsService

end Server
