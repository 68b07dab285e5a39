import Beatmap.Mapset.Basic
import Beatmap.Proofs.Extensions
import Beatmap.Text.Pieces

/-!
# Storage keys

The key of a member consists of its role, two digits, its content hash and its extension, where the
extension comes from an arbitrary path. The key is uniquely decodable: no component contains a
separator (`Member.pieces_storageKey`), and all hashes have the same length. The role is determined
by the extension.

Two keys are therefore equal exactly if the hashes and the extensions are, and no member has the key
of an archive (`Member.storageKey_exact`).
-/

namespace Beatmap

open Beatmap.Text

/-! ## Components of keys -/

theorem shard_eq_take {fingerprint : List Char} (h : ∀ c ∈ fingerprint, c.utf8Size = 1) :
    shard fingerprint = fingerprint.take 2 := by
  cases fingerprint with
  | nil => rfl
  | cons a rest =>
    have ha : a.utf8Size = 1 := h a (List.mem_cons_self ..)
    cases rest with
    | nil => simp [shard]
    | cons b rest =>
      have hb : b.utf8Size = 1 := h b (List.mem_cons_of_mem _ (List.mem_cons_self ..))
      simp [shard, ha, hb]

/-- The suffix of a key for an extension. -/
def suffix (ext : List Char) : List Char := if ext = [] then [] else '.' :: ext

theorem suffix_injective {ext other : List Char} (h : suffix ext = suffix other) : ext = other := by
  unfold suffix at h
  split at h <;> split at h <;> simp_all

theorem storageKey_eq (kind fingerprint : List Char) (ext? : Option (List Char)) :
    storageKey kind fingerprint ext?
      = kind ++ '/' :: (shard fingerprint ++ '/' :: (fingerprint ++ suffix (ext?.getD []))) := by
  rcases ext? with _ | _ | ⟨c, rest⟩ <;> simp [storageKey, suffix]

/-- A content hash consists of 64 hexadecimal digits. -/
theorem mem_fingerprint {content : ByteArray} {c : Char} (h : c ∈ (fingerprint content).toList) :
    c ∈ "0123456789abcdef".toList := by
  rw [fingerprint, Hash.Blake3.hexHash, String.toList_ofList] at h
  exact Hex.mem_ofWords h

theorem length_fingerprint (content : ByteArray) : (fingerprint content).toList.length = 64 :=
  Hash.Blake3.length_hexHash content

theorem slash_not_mem_fingerprint (content : ByteArray) : '/' ∉ (fingerprint content).toList := by
  intro h
  exact absurd (mem_fingerprint h) (by decide)

theorem shard_fingerprint (content : ByteArray) :
    shard (fingerprint content).toList = (fingerprint content).toList.take 2 := by
  have hsize : ("0123456789abcdef".toList.all fun c => c.utf8Size == 1) = true := by decide
  exact shard_eq_take fun c hc => eq_of_beq (List.all_eq_true.mp hsize c (mem_fingerprint hc))

theorem Role.slash_not_mem_name (role : Role) : '/' ∉ role.name.toList := by
  cases role <;> decide

theorem Role.name_ne_osz (role : Role) : role.name.toList ≠ "osz".toList := by
  cases role <;> decide

/-- The extension of a path in ASCII lower case, or the empty text. -/
def Path.keyExtension (path : List Char) : List Char := (lowerExtension? path).getD []

theorem Path.keyExtension_forwardSlashes (path : List Char) :
    keyExtension (forwardSlashes path) = keyExtension path := by
  rw [keyExtension, lowerExtension?, extension?, lastPart_forwardSlashes]
  rfl

theorem Path.slash_not_mem_keyExtension (path : List Char) : '/' ∉ keyExtension path := by
  unfold keyExtension lowerExtension?
  cases hext : extension? path with
  | none => exact List.not_mem_nil
  | some ext =>
    intro h
    obtain ⟨c, hc, hslash⟩ := List.mem_map.mp h
    obtain rfl : c = '/' := (isMark_of_isSeparator rfl).lowerAscii_eq_iff.mp hslash
    exact absurd (isSeparator_of_mem_extension? hext hc) (by decide)

/-! ## Keys of members -/

namespace Member

/-- The role is determined by the extension. -/
theorem role_ofContent (path : String) (content : ByteArray) :
    (ofContent path content).role = Role.ofExtension (Path.keyExtension path.toList) := by
  have hrole := Role.ofPath_eq_ofExtension (Path.forwardSlashes path.toList)
  rwa [← Path.keyExtension, Path.keyExtension_forwardSlashes] at hrole

theorem toList_storageKey (path : String) (content : ByteArray) :
    (ofContent path content).storageKey.toList
      = (ofContent path content).role.name.toList
        ++ '/' :: ((fingerprint content).toList.take 2
        ++ '/' :: ((fingerprint content).toList ++ suffix (Path.keyExtension path.toList))) := by
  have hpath : (ofContent path content).path.toList = Path.forwardSlashes path.toList :=
    String.toList_ofList
  have hfingerprint : (ofContent path content).contentHash = fingerprint content := rfl
  rw [storageKey, String.toList_ofList, storageKey_eq, hfingerprint, shard_fingerprint,
    ← Path.keyExtension, hpath, Path.keyExtension_forwardSlashes]

theorem slash_not_mem_file (path : String) (content : ByteArray) :
    '/' ∉ (fingerprint content).toList ++ suffix (Path.keyExtension path.toList) := by
  have hext := Path.slash_not_mem_keyExtension path.toList
  rw [List.mem_append, not_or]
  refine ⟨slash_not_mem_fingerprint content, ?_⟩
  unfold suffix
  split
  · exact List.not_mem_nil
  · exact List.not_mem_cons_of_ne_of_not_mem (by decide) hext

theorem pieces_storageKey (path : String) (content : ByteArray) :
    pieces '/' (ofContent path content).storageKey.toList
      = [(ofContent path content).role.name.toList, (fingerprint content).toList.take 2,
        (fingerprint content).toList ++ suffix (Path.keyExtension path.toList)] := by
  have hdigits : '/' ∉ (fingerprint content).toList.take 2 :=
    fun h => slash_not_mem_fingerprint content (List.mem_of_mem_take h)
  rw [toList_storageKey, pieces_append_cons (Role.slash_not_mem_name _), pieces_append_cons hdigits,
    pieces_eq_singleton (slash_not_mem_file path content)]

theorem storageKey_eq_iff (path other : String) (content otherContent : ByteArray) :
    (ofContent path content).storageKey = (ofContent other otherContent).storageKey
      ↔ fingerprint content = fingerprint otherContent
        ∧ Path.keyExtension path.toList = Path.keyExtension other.toList := by
  constructor
  · intro h
    have hpieces := congrArg (fun key : String => pieces '/' key.toList) h
    simp only [pieces_storageKey, List.cons.injEq, and_true] at hpieces
    obtain ⟨-, -, hfile⟩ := hpieces
    -- The hashes have equal lengths, so both file names are split at the same index.
    have hlength : (fingerprint content).toList.length
        = (fingerprint otherContent).toList.length := by
      rw [length_fingerprint, length_fingerprint]
    obtain ⟨hfingerprint, hsuffix⟩ := List.append_inj hfile hlength
    exact ⟨String.toList_inj.mp hfingerprint, suffix_injective hsuffix⟩
  · rintro ⟨hfingerprint, hext⟩
    rw [← String.toList_inj, toList_storageKey, toList_storageKey, role_ofContent, role_ofContent,
      hfingerprint, hext]

theorem storageKey_ne_archiveStorageKey (path : String) (content : ByteArray) (m : Mapset) :
    (ofContent path content).storageKey ≠ m.archiveStorageKey := by
  intro h
  have hpieces := congrArg (fun key : String => pieces '/' key.toList) h
  have hosz : '/' ∉ "osz".toList := by decide
  simp only [pieces_storageKey, Mapset.archiveStorageKey, String.toList_ofList, storageKey_eq,
    pieces_append_cons hosz, List.cons.injEq] at hpieces
  exact Role.name_ne_osz _ hpieces.1

/-- **Storage keys.** Two members built from paths and contents have the same key exactly if their
content hashes agree and their extensions agree up to ASCII case, where a missing extension counts
as empty. A key has three components, whatever the path, and the second one is the first two digits
of the hash. No member has the key of an archive. -/
theorem storageKey_exact :
    (∀ (path other : String) (content otherContent : ByteArray),
      (ofContent path content).storageKey = (ofContent other otherContent).storageKey
        ↔ (ofContent path content).contentHash = (ofContent other otherContent).contentHash
          ∧ (Path.lowerExtension? path.toList).getD []
            = (Path.lowerExtension? other.toList).getD [])
      ∧ (∀ (path : String) (content : ByteArray),
        pieces '/' (ofContent path content).storageKey.toList
          = [(ofContent path content).role.name.toList,
            (ofContent path content).contentHash.toList.take 2,
            (ofContent path content).contentHash.toList
              ++ suffix ((Path.lowerExtension? path.toList).getD [])])
      ∧ ∀ (path : String) (content : ByteArray) (m : Mapset),
        (ofContent path content).storageKey ≠ m.archiveStorageKey :=
  ⟨storageKey_eq_iff, pieces_storageKey, storageKey_ne_archiveStorageKey⟩

end Member

end Beatmap
