import Hotpatch.Proofs.Image.NormalForm
import Hotpatch.Proofs.Metadata.SelfDelimiting

/-! # Images delimit themselves

Where an image ends is told by its bytes alone, and an image that is cut short is never taken for another.

* **`selfDelimiting_readBody`**, **`selfDelimiting_readMethod`**, **`selfDelimiting_readType`** — the parts
  of an image are self-delimiting.
* **`ModuleImage.exists_delimited_of_read`** — so are images. -/

namespace Hotpatch

open Reader (selfDelimiting_pure selfDelimiting_fail selfDelimiting_attempt selfDelimiting_times)

variable (tokens : TokenTable)

/-- **A body is self-delimiting**: its code is decoded only once all bytes of it are there. -/
@[simp] theorem selfDelimiting_readBody : (readBody tokens).SelfDelimiting := by
  refine selfDelimiting.bind fun maxStack => ?_
  refine selfDelimiting.bind fun initLocals => ?_
  refine selfDelimiting.bind fun locals => ?_
  refine selfDelimiting_bytes.bind fun bytes => ?_
  exact (selfDelimiting_attempt _).bind fun decoded => selfDelimiting_pure _

/-- **A method is self-delimiting**, with and without a body. -/
@[simp] theorem selfDelimiting_readMethod : (readMethod tokens).SelfDelimiting := by
  refine selfDelimiting.bind fun name => ?_
  refine selfDelimiting.bind fun attributes => ?_
  refine selfDelimiting.bind fun parameters => ?_
  refine selfDelimiting.bind fun returnType => ?_
  refine selfDelimiting.bind fun markers => ?_
  refine selfDelimiting.bind fun hasBody => ?_
  split
  · exact (selfDelimiting_readBody tokens).bind fun _ => selfDelimiting_pure _
  · exact selfDelimiting_pure _

/-- **A type is self-delimiting.** -/
@[simp] theorem selfDelimiting_readType : (readType tokens).SelfDelimiting := by
  refine selfDelimiting.bind fun namespaceName => ?_
  refine selfDelimiting.bind fun name => ?_
  refine selfDelimiting.bind fun attributes => ?_
  refine selfDelimiting.bind fun markers => ?_
  refine selfDelimiting_length.bind fun count => ?_
  exact (selfDelimiting_times (selfDelimiting_readMethod tokens) count).bind fun _ => selfDelimiting_pure _

namespace ModuleImage

/-- **An image is self-delimiting.** -/
theorem selfDelimiting_read : ModuleImage.read.SelfDelimiting := by
  -- Behind the version everything is read with the tokens in front of it.
  have behind : Reader.SelfDelimiting (do
      let name ← Binary.read
      let references ← Binary.read
      let markers ← Binary.read
      let tokens ← Binary.read
      let types ← Reader.times (← readLength) (readType tokens)
      return (⟨⟨name, references, markers, types.map (·.1), none⟩, types.map (·.2)⟩ : ModuleImage)) := by
    refine selfDelimiting.bind fun name => ?_
    refine selfDelimiting.bind fun references => ?_
    refine selfDelimiting.bind fun markers => ?_
    refine selfDelimiting.bind fun tokens => ?_
    refine selfDelimiting_length.bind fun count => ?_
    exact (selfDelimiting_times (selfDelimiting_readType tokens) count).bind fun _ => selfDelimiting_pure _
  refine (selfDelimiting_magic imageMagic).bind fun _ => ?_
  refine selfDelimiting.bind fun version => ?_
  split
  · exact (selfDelimiting_fail _).bind fun _ => behind
  · exact behind

/-- **Where an image ends.** What is read as an image are the first of the bytes, whatever stands behind
them: in front of any other bytes they are read as the same module, with its code at the same offsets, and
the others are left. If any of them are missing at the end, the image is found to be cut short. -/
theorem exists_delimited_of_read {bytes rest : List UInt8} {image : ModuleImage}
    (read : ModuleImage.read bytes = .ok (image, rest)) :
    ∃ taken, bytes = taken ++ rest
      ∧ (∀ other, ModuleImage.read (taken ++ other) = .ok (image, other))
      ∧ ∀ cut, cut <+: taken → cut ≠ taken → ModuleImage.read cut = .error .unexpectedEnd := by
  obtain ⟨taken, whole, delimited⟩ := selfDelimiting_read bytes image rest read
  exact ⟨taken, whole, delimited.reads, delimited.short⟩

/-- The image that is not in normal form is read in front of two more bytes; so it is with nothing behind it,
and in front of itself, and all that is in front of its last byte is too short. -/
theorem exists_delimited_of_read_loose :
    ∃ image, ModuleImage.read (Module.looseImage ++ [0x49, 0x4c]) = .ok (image, [0x49, 0x4c])
      ∧ ModuleImage.read Module.looseImage = .ok (image, [])
      ∧ ModuleImage.read (Module.looseImage ++ Module.looseImage) = .ok (image, Module.looseImage)
      ∧ ∀ count < Module.looseImage.length,
        ModuleImage.read (Module.looseImage.take count) = .error .unexpectedEnd := by
  have left : (ModuleImage.read (Module.looseImage ++ [0x49, 0x4c])).toOption.map (·.2)
      = some [0x49, 0x4c] := by decide +kernel
  cases read : ModuleImage.read (Module.looseImage ++ [0x49, 0x4c]) with
  | error fault =>
    rw [read] at left
    cases left
  | ok found =>
    obtain ⟨image, rest⟩ := found
    rw [read] at left
    obtain rfl : rest = [0x49, 0x4c] := Option.some.inj left
    obtain ⟨taken, whole, reads, short⟩ := exists_delimited_of_read read
    obtain rfl := List.append_cancel_right whole
    refine ⟨image, rfl, ?_, reads _, fun count fewer => ?_⟩
    · have alone := reads []
      rwa [List.append_nil] at alone
    · refine short _ (List.take_prefix count _) fun same => ?_
      have length := congrArg List.length same
      rw [List.length_take] at length
      omega

end ModuleImage

end Hotpatch
