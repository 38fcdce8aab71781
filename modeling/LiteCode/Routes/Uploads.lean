import LiteCode.Lib.Cut
import LiteCode.Lib.Disk
import LiteCode.Lib.System
import LiteCode.Routes.SuperAdmin
import LiteCode.Utils.Uuid

/-!
# Uploaded pictures

`update_avatar_handler` of `src/routes/auth_routes.h` and `handle_upload_discussion_image` of
`src/routes/discussion_routes.h`. Both decide on the format of a picture by its first bytes, write
it to a file below `/app/uploads` and answer with the URL under which `src/main.cpp` serves that
file. An avatar has the id of its user as its name, and replaces the one before; an image has a new
UUID. A call opens its file, writes it piece by piece and closes it, while others do the same.
Opening, writing, closing, removing and the statement on the row of the user may fail.

* `stored_of_reach`: in every interleaving, the avatar of a user is a file that is there, and that
  only uploads of that user and in that format have written, the zeros of its holes apart;
* `kept_of_reach`: images keep their bytes for good, if no UUID comes twice, and so does the last
  avatar, if nobody uploads two at once.
-/

namespace LiteCode.Uploads

open ErrorHandler
open SuperAdmin (Claims userIdFromClaims)

/-! ## The checks -/

/-- `MultipartFormData`: the part of a body that has the name of the field. -/
structure File where
  content : Bytes
  contentType : Bytes
  deriving DecidableEq, Repr

/-- The formats of pictures. -/
inductive Ext
  | jpg
  | png
  | gif
  | webp
  deriving DecidableEq, Repr

/-- The end of the name of a file. -/
def Ext.name : Ext → Bytes
  | jpg => bytes ".jpg"
  | png => bytes ".png"
  | gif => bytes ".gif"
  | webp => bytes ".webp"

/-- The first bytes of a JPEG. -/
def isJpeg (b : Bytes) : Bool := b.take 3 == [0xFF, 0xD8, 0xFF]

/-- The first bytes of a PNG. -/
def isPng (b : Bytes) : Bool := b.take 8 == [0x89, 0x50, 0x4E, 0x47, 0x0D, 0x0A, 0x1A, 0x0A]

/-- The first bytes of a GIF. -/
def isGif (b : Bytes) : Bool :=
  b.take 4 == bytes "GIF8" && (b[4]? == some 0x37 || b[4]? == some 0x39) && b[5]? == some 0x61

/-- The first bytes of a WEBP. -/
def isWebp (b : Bytes) : Bool := b.take 4 == bytes "RIFF" && (b.drop 8).take 4 == bytes "WEBP"

/-- `kMaxAvatarBytes` and `kMaxImageBytes`. -/
def maxBytes : Nat := 2 * 1024 * 1024

/-- A `413`. -/
def tooLarge (message : String) (b : Bytes) : Envelope :=
  ⟨413, .invalidInput, bytes message,
    [.number (bytes "max_bytes") maxBytes, .number (bytes "got_bytes") b.length]⟩

/-- A body without the field. -/
def missing (name : String) : Envelope :=
  invalidInput (bytes "missing '" ++ bytes name ++ bytes "' field in multipart body")
    [.text (bytes "expected_field") (bytes name)]

/-- The first bytes are of no format. -/
def mismatch (message : String) (file : File) : Envelope :=
  invalidInput (bytes message) [.text (bytes "content_type") file.contentType]

/-- The checks of `update_avatar_handler`: the bytes and their format. -/
def checkAvatar (file : Option File) : Except Envelope (Bytes × Ext) :=
  match file with
  | none => .error (missing "avatar")
  | some file =>
    let b := file.content
    if maxBytes < b.length then .error (tooLarge "avatar too large (max 2 MB)" b)
    else if b.isEmpty then .error (invalidInput (bytes "avatar file is empty") [])
    else if isJpeg b then .ok (b, .jpg)
    else if isPng b then .ok (b, .png)
    else .error (mismatch "avatar must be JPEG or PNG (magic bytes mismatch)" file)

/-- The checks of `handle_upload_discussion_image`. -/
def checkImage (file : Option File) : Except Envelope (Bytes × Ext) :=
  match file with
  | none => .error (missing "image")
  | some file =>
    let b := file.content
    if b.isEmpty then .error (invalidInput (bytes "image file is empty") [])
    else if maxBytes < b.length then .error (tooLarge "image too large (max 2 MB)" b)
    else if isJpeg b then .ok (b, .jpg)
    else if isPng b then .ok (b, .png)
    else if isGif b then .ok (b, .gif)
    else if isWebp b then .ok (b, .webp)
    else .error (mismatch "image must be JPEG, PNG, GIF, or WEBP (magic bytes mismatch)" file)

/-- The user who uploads an image. -/
def imageUser (claims : Claims) : Except Envelope Int :=
  match stoi claims.userId with
  | none => .error ⟨401, .unauthorized, bytes "invalid sub claim", []⟩
  | some id =>
    if id ≤ 0 then .error ⟨401, .unauthorized, bytes "invalid sub claim", []⟩ else .ok id

/-! ## The calls -/

/-- What a picture is for. -/
inductive Target
  | avatar (userId : Int)
  | image (id : Bytes)
  deriving DecidableEq, Repr

/-- The directory of the files, below the directory of all uploads. -/
def Target.dir : Target → Bytes
  | avatar _ => bytes "/uploads/avatars"
  | image _ => bytes "/uploads/discussion_images"

/-- The name of a file without its end. -/
def Target.stem : Target → Bytes
  | avatar userId => decimalInt userId
  | image id => id

/-- What a call has found to upload. -/
structure Upload where
  target : Target
  content : Bytes
  ext : Ext
  deriving DecidableEq

/-- `url`. -/
def Upload.url (u : Upload) : Bytes :=
  u.target.dir ++ bytes "/" ++ (u.target.stem ++ u.ext.name)

/-- `path`. -/
def Upload.path (u : Upload) : Bytes := bytes "/app" ++ u.url

/-- `server.mount("/uploads", "/app/uploads")`: the file that is served for a URL. -/
def served (url : Bytes) : Option Bytes :=
  if url.take 8 = bytes "/uploads" then some (bytes "/app/uploads" ++ url.drop 8) else none

/-- Where a call is. -/
inductive Pc
  /-- The file is open as the number `node`, and so many bytes were written. -/
  | writing (node written : Nat)
  /-- The file of an avatar is closed, and the row is to be changed. -/
  | closed
  /-- The file of an image is to be removed. -/
  | failed (e : Envelope)
  | answered (answer : Except Envelope Bytes)
  deriving DecidableEq

/-- A call that has come past the checks. -/
structure Call where
  upload : Upload
  pc : Pc
  deriving DecidableEq

/-- The files, the avatars of the users who have a row, and the calls in the order in which they
    were begun. -/
structure State where
  disk : Disk
  avatars : Int → Option (Option Bytes)
  calls : List Call

/-- What goes wrong before a file is open. -/
inductive OpenFault
  /-- `create_directories` throws. -/
  | directories (what : Bytes)
  | refused
  deriving DecidableEq

/-- The file of a call is opened. -/
def State.opened (s : State) (u : Upload) : State where
  disk := (s.disk.openTrunc u.path).1
  avatars := s.avatars
  calls := s.calls ++ [⟨u, .writing (s.disk.openTrunc u.path).2 0⟩]

/-- `update_avatar_handler`, up to the open file. -/
def State.openAvatar (s : State) (claims : Claims) (file : Option File)
    (fault : Option OpenFault) : Except Envelope State := do
  let userId ← userIdFromClaims claims
  let (content, ext) ← checkAvatar file
  let u : Upload := ⟨.avatar userId, content, ext⟩
  match fault with
  | some (.directories what) => .error (internalError (bytes "avatar write failed: " ++ what))
  | some .refused =>
    .error (internalError (bytes "failed to open avatar file for writing: " ++ u.path))
  | none => .ok (s.opened u)

/-- `handle_upload_discussion_image`, up to the open file; `hi` and `lo` are the random words of the
    UUID. -/
def State.openImage (s : State) (claims : Claims) (file : Option File) (hi lo : UInt64)
    (fault : Option OpenFault) : Except Envelope State := do
  let _ ← imageUser claims
  let (content, ext) ← checkImage file
  let u : Upload := ⟨.image (generateUuidV4 hi lo), content, ext⟩
  match fault with
  | some (.directories _) =>
    -- the handler of the exception removes the file that was to be opened
    let e := internalError (bytes "failed to store discussion image")
    .ok { s with calls := s.calls ++ [⟨u, .failed e⟩] }
  | some .refused => .error (internalError (bytes "failed to open discussion image file"))
  | none => .ok (s.opened u)

/-- The actions: of the callers, of the calls by their numbers, and of other statements. -/
inductive Action
  | avatar (claims : Claims) (file : Option File) (fault : Option OpenFault)
  | image (claims : Claims) (file : Option File) (hi lo : UInt64) (fault : Option OpenFault)
  /-- The next `n` bytes of a call are written. -/
  | write (i n : Nat)
  /-- `close`: whether all went well since the file was opened. -/
  | close (i : Nat) (ok : Bool)
  /-- `remove`, which may fail. -/
  | remove (i : Nat) (ok : Bool)
  /-- `update_avatar`, or the text of its exception. -/
  | update (i : Nat) (fault : Option Bytes)
  /-- A user gets a row. -/
  | register (userId : Int)

/-- The call `i` goes on at `pc`. -/
def State.goto (s : State) (i : Nat) (c : Call) (pc : Pc) : State :=
  { s with calls := s.calls.set i { c with pc } }

/-- The call whose file could not be written. -/
def Upload.broken (u : Upload) : Pc :=
  match u.target with
  | .avatar _ =>
    .answered (.error (internalError (bytes "failed to write avatar bytes to: " ++ u.path)))
  | .image _ => .failed (internalError (bytes "failed to write discussion image file"))

/-- The call whose file is closed. -/
def Upload.complete (u : Upload) : Pc :=
  match u.target with
  | .avatar _ => .closed
  | .image _ => .answered (.ok u.url)

/-- The response when no row was changed. -/
def userNotFound : Envelope := ⟨404, .notFound, bytes "user not found", []⟩

/-- `UPDATE users SET avatar = ?`: a row that has the value is not counted as changed. -/
def State.updateAvatar (s : State) (i : Nat) (c : Call) (userId : Int) : State :=
  if (s.avatars userId).any fun old => old ≠ some c.upload.url then
    { s.goto i c (.answered (.ok c.upload.url)) with
      avatars := fun id => if id = userId then some (some c.upload.url) else s.avatars id }
  else s.goto i c (.answered (.error userNotFound))

/-- One step. -/
def step (s : State) : Action → Option State
  | .avatar claims file fault =>
    match s.openAvatar claims file fault with
    | .ok s' => some s'
    | .error _ => some s
  | .image claims file hi lo fault =>
    match s.openImage claims file hi lo fault with
    | .ok s' => some s'
    | .error _ => some s
  | .write i n => do
    let c ← s.calls[i]?
    match c.pc with
    | .writing node written =>
      if 0 < n ∧ written + n ≤ c.upload.content.length then
        let disk := s.disk.write node written ((c.upload.content.drop written).take n)
        some { s.goto i c (.writing node (written + n)) with disk }
      else none
    | _ => none
  | .close i ok => do
    let c ← s.calls[i]?
    match c.pc with
    | .writing _ written =>
      if ok then
        if written = c.upload.content.length then some (s.goto i c c.upload.complete) else none
      else some (s.goto i c c.upload.broken)
    | _ => none
  | .remove i ok => do
    let c ← s.calls[i]?
    match c.pc with
    | .failed e =>
      let disk := if ok then s.disk.remove c.upload.path else s.disk
      some { s.goto i c (.answered (.error e)) with disk }
    | _ => none
  | .update i fault => do
    let c ← s.calls[i]?
    match c.upload.target, c.pc with
    | .avatar userId, .closed =>
      match fault with
      | some what => some (s.goto i c (.answered (.error
          (internalError (bytes "internal error: " ++ what)))))
      | none => some (s.updateAvatar i c userId)
    | _, _ => none
  | .register userId =>
    if s.avatars userId = none then
      some { s with avatars := fun id => if id = userId then some none else s.avatars id }
    else none

/-- The uploads, from empty directories and users without avatars on. -/
def system : System State Action where
  init s := s.disk = Disk.empty ∧ s.calls = [] ∧ ∀ id url, s.avatars id ≠ some (some url)
  step := step

/-! ## What a step does -/

/-- The format of bytes. -/
def Ext.Starts : Ext → Bytes → Prop
  | jpg, b => isJpeg b = true
  | png, b => isPng b = true
  | gif, b => isGif b = true
  | webp, b => isWebp b = true

/-- What has come past the checks. -/
structure Upload.Checked (u : Upload) : Prop where
  nonempty : u.content ≠ []
  size : u.content.length ≤ maxBytes
  format : u.ext.Starts u.content
  /-- The name of the file ends where its format begins. -/
  stem : 0x2E ∉ u.target.stem
  avatar : ∀ id, u.target = .avatar id → u.ext = .jpg ∨ u.ext = .png

/-- What a new call is for. -/
def Aims : Action → Target → Prop
  | .avatar claims .., target => ∃ id, stoi claims.userId = some id ∧ target = .avatar id
  | .image _ _ hi lo _, target => target = .image (generateUuidV4 hi lo)
  | _, _ => False

/-- What the steps do. -/
inductive Moves (s : State) : Action → State → Prop
  | idle (a : Action) : Moves s a s
  | opened {a : Action} {u : Upload} (hu : u.Checked) (ha : Aims a u.target) :
      Moves s a (s.opened u)
  | refused {a : Action} {u : Upload} {id : Bytes} {e : Envelope} (he : e.status = 500)
      (hu : u.Checked) (ha : Aims a u.target) (himage : u.target = .image id) :
      Moves s a { s with calls := s.calls ++ [⟨u, .failed e⟩] }
  | write {i node written n : Nat} {c : Call} (hi : s.calls[i]? = some c)
      (hpc : c.pc = .writing node written) (hn : written + n ≤ c.upload.content.length) :
      Moves s (.write i n) { s.goto i c (.writing node (written + n)) with
        disk := s.disk.write node written ((c.upload.content.drop written).take n) }
  | complete {i node : Nat} {c : Call} (hi : s.calls[i]? = some c)
      (hpc : c.pc = .writing node c.upload.content.length) :
      Moves s (.close i true) (s.goto i c c.upload.complete)
  | broken {i node written : Nat} {c : Call} (hi : s.calls[i]? = some c)
      (hpc : c.pc = .writing node written) : Moves s (.close i false) (s.goto i c c.upload.broken)
  | kept {i : Nat} {c : Call} {e : Envelope} (hi : s.calls[i]? = some c) (hpc : c.pc = .failed e) :
      Moves s (.remove i false) (s.goto i c (.answered (.error e)))
  | removed {i : Nat} {c : Call} {e : Envelope} (hi : s.calls[i]? = some c)
      (hpc : c.pc = .failed e) :
      Moves s (.remove i true) { s.goto i c (.answered (.error e)) with
        disk := s.disk.remove c.upload.path }
  | threw {i : Nat} {c : Call} (what : Bytes) (hi : s.calls[i]? = some c) (hpc : c.pc = .closed) :
      Moves s (.update i (some what)) (s.goto i c (.answered (.error
        (internalError (bytes "internal error: " ++ what)))))
  | unchanged {i : Nat} {c : Call} (hi : s.calls[i]? = some c) (hpc : c.pc = .closed) :
      Moves s (.update i none) (s.goto i c (.answered (.error userNotFound)))
  | changed {i : Nat} {c : Call} {userId : Int} (hi : s.calls[i]? = some c) (hpc : c.pc = .closed)
      (htarget : c.upload.target = .avatar userId) :
      Moves s (.update i none) { s.goto i c (.answered (.ok c.upload.url)) with
        avatars := fun id => if id = userId then some (some c.upload.url) else s.avatars id }
  | registered (userId : Int) : Moves s (.register userId)
      { s with avatars := fun id => if id = userId then some none else s.avatars id }

variable {s s' : State} {a : Action}

theorem dot_not_mem_decimalInt (id : Int) : 0x2E ∉ decimalInt id := by
  have hdecimal (n : Nat) : 0x2E ∉ decimal n := fun h =>
    absurd (isDigit_of_mem_decimal _ h) (by decide)
  cases id with
  | ofNat n => exact hdecimal n
  | negSucc n =>
    intro h
    rcases List.mem_append.1 h with h | h
    · exact absurd h (by decide)
    · exact hdecimal _ h

theorem dot_not_mem_uuid (hi lo : UInt64) : 0x2E ∉ generateUuidV4 hi lo := by
  intro h
  rcases (generateUuidV4_spec hi lo).chars _ h with h | h
  · exact absurd h (by unfold IsHexDigit; decide)
  · exact absurd h (by decide)

theorem checked_of_checkAvatar {file : Option File} {content : Bytes} {ext : Ext}
    (h : checkAvatar file = .ok (content, ext)) (id : Int) :
    Upload.Checked ⟨.avatar id, content, ext⟩ := by
  cases file with
  | none => cases h
  | some file =>
    simp only [checkAvatar] at h
    split_ifs at h with hsize hempty hjpeg hpng
    · cases h
      exact ⟨by simpa using hempty, Nat.not_lt.1 hsize, hjpeg, dot_not_mem_decimalInt id,
        fun _ _ => .inl rfl⟩
    · cases h
      exact ⟨by simpa using hempty, Nat.not_lt.1 hsize, hpng, dot_not_mem_decimalInt id,
        fun _ _ => .inr rfl⟩

theorem checked_of_checkImage {file : Option File} {content : Bytes} {ext : Ext}
    (h : checkImage file = .ok (content, ext)) (hi lo : UInt64) :
    Upload.Checked ⟨.image (generateUuidV4 hi lo), content, ext⟩ := by
  cases file with
  | none => cases h
  | some file =>
    have hstem := dot_not_mem_uuid hi lo
    simp only [checkImage] at h
    split_ifs at h with hempty hsize hjpeg hpng hgif hwebp
    · cases h
      exact ⟨by simpa using hempty, Nat.not_lt.1 hsize, hjpeg, hstem, nofun⟩
    · cases h
      exact ⟨by simpa using hempty, Nat.not_lt.1 hsize, hpng, hstem, nofun⟩
    · cases h
      exact ⟨by simpa using hempty, Nat.not_lt.1 hsize, hgif, hstem, nofun⟩
    · cases h
      exact ⟨by simpa using hempty, Nat.not_lt.1 hsize, hwebp, hstem, nofun⟩

theorem moves_of_openAvatar {claims : Claims} {file : Option File} {fault : Option OpenFault}
    (h : s.openAvatar claims file fault = .ok s') : Moves s (.avatar claims file fault) s' := by
  obtain ⟨id, hid, h⟩ := bind_eq_ok.1 h
  obtain ⟨⟨content, ext⟩, hfile, h⟩ := bind_eq_ok.1 h
  dsimp only at h
  split at h
  case h_1 => cases h
  case h_2 => cases h
  case h_3 =>
    cases h
    exact .opened (checked_of_checkAvatar hfile id) ⟨id, SuperAdmin.userIdFromClaims_ok hid, rfl⟩

theorem moves_of_openImage {claims : Claims} {file : Option File} {hi lo : UInt64}
    {fault : Option OpenFault} (h : s.openImage claims file hi lo fault = .ok s') :
    Moves s (.image claims file hi lo fault) s' := by
  obtain ⟨id, hid, h⟩ := bind_eq_ok.1 h
  obtain ⟨⟨content, ext⟩, hfile, h⟩ := bind_eq_ok.1 h
  dsimp only at h
  split at h
  case h_1 =>
    cases h
    exact .refused rfl (checked_of_checkImage hfile hi lo) rfl rfl
  case h_2 => cases h
  case h_3 =>
    cases h
    exact .opened (checked_of_checkImage hfile hi lo) rfl

theorem moves_of_step (h : step s a = some s') : Moves s a s' := by
  cases a with
  | avatar claims file fault =>
    simp only [step] at h
    split at h
    case h_1 hopen =>
      cases h
      exact moves_of_openAvatar hopen
    case h_2 =>
      cases h
      exact .idle _
  | image claims file hi lo fault =>
    simp only [step] at h
    split at h
    case h_1 hopen =>
      cases h
      exact moves_of_openImage hopen
    case h_2 =>
      cases h
      exact .idle _
  | write i n =>
    obtain ⟨c, hi, h⟩ := Option.bind_eq_some_iff.1 h
    split at h
    case h_1 hpc =>
      split_ifs at h with hn
      cases h
      exact .write hi hpc hn.2
    case h_2 => cases h
  | close i ok =>
    obtain ⟨c, hi, h⟩ := Option.bind_eq_some_iff.1 h
    split at h
    case h_1 hpc =>
      split_ifs at h with hok hlen
      · cases h
        rw [hok]
        exact .complete hi (hlen ▸ hpc)
      · cases h
        rw [Bool.eq_false_iff.2 hok]
        exact .broken hi hpc
    case h_2 => cases h
  | remove i ok =>
    obtain ⟨c, hi, h⟩ := Option.bind_eq_some_iff.1 h
    split at h
    case h_1 e hpc =>
      cases ok with
      | true =>
        cases h
        exact .removed hi hpc
      | false =>
        cases h
        exact .kept hi hpc
    case h_2 => cases h
  | update i fault =>
    obtain ⟨c, hi, h⟩ := Option.bind_eq_some_iff.1 h
    split at h
    case h_1 userId htarget hpc =>
      cases fault with
      | some what =>
        cases h
        exact .threw what hi hpc
      | none =>
        cases h
        rw [State.updateAvatar]
        split_ifs
        · exact .changed hi hpc htarget
        · exact .unchanged hi hpc
    case h_2 => cases h
  | register userId =>
    simp only [step] at h
    split_ifs at h
    cases h
    exact .registered userId

/-! ## The names of the files -/

/-- The end of a name, without its dot. -/
theorem exists_name_eq (e : Ext) : ∃ l, e.name = 0x2E :: l := by
  cases e <;> exact ⟨_, rfl⟩

theorem name_inj : ∀ {e e' : Ext}, e.name = e'.name → e = e' := by
  intro e e' h
  cases e <;> cases e' <;> first | rfl | exact absurd h (by decide)

/-- A name is parted at its first dot. -/
theorem stem_inj {stem stem' : Bytes} {e e' : Ext} (hs : 0x2E ∉ stem) (hs' : 0x2E ∉ stem')
    (h : stem ++ e.name = stem' ++ e'.name) : stem = stem' ∧ e = e' := by
  obtain ⟨l, hl⟩ := exists_name_eq e
  obtain ⟨l', hl'⟩ := exists_name_eq e'
  have hstem : stem = stem' := by
    rw [hl, hl'] at h
    have hcut := congrArg (fun t => t.takeWhile (· ≠ (0x2E : UInt8))) h
    rwa [takeWhile_ne_append hs, takeWhile_ne_append hs'] at hcut
  rw [hstem] at h
  exact ⟨hstem, name_inj (List.append_cancel_left h)⟩

/-- Files of different targets or formats are different files. -/
theorem Upload.Checked.path_inj {u v : Upload} (hu : u.Checked) (hv : v.Checked)
    (h : u.path = v.path) : u.target = v.target ∧ u.ext = v.ext := by
  obtain ⟨target, content, ext⟩ := u
  obtain ⟨target', content', ext'⟩ := v
  have hurl := List.append_cancel_left h
  cases target with
  | avatar id =>
    cases target' with
    | avatar id' =>
      obtain ⟨hstem, hext⟩ := stem_inj hu.stem hv.stem (List.append_cancel_left hurl)
      exact ⟨congrArg Target.avatar (decimalInt_injective hstem), hext⟩
    | image uuid =>
      have hletter : some (0x61 : UInt8) = some 0x64 := congrArg (fun t => t[9]?) hurl
      exact absurd hletter (by decide)
  | image uuid =>
    cases target' with
    | avatar id =>
      have hletter : some (0x64 : UInt8) = some 0x61 := congrArg (fun t => t[9]?) hurl
      exact absurd hletter (by decide)
    | image uuid' =>
      obtain ⟨hstem, hext⟩ := stem_inj hu.stem hv.stem (List.append_cancel_left hurl)
      exact ⟨congrArg Target.image hstem, hext⟩

/-- The uploads that were begun. -/
def State.uploads (s : State) : List Upload := s.calls.map Call.upload

/-- The byte `i` of an upload to a file. -/
def Puts (uploads : List Upload) (path : Bytes) (i : Nat) (b : UInt8) : Prop :=
  ∃ u ∈ uploads, u.path = path ∧ u.content[i]? = some b

/-- What the calls have to do with the files and the rows. -/
structure Accounted (s : State) : Prop where
  checked : ∀ u ∈ s.uploads, u.Checked
  /-- A file that is open has the name of the call, or none any more. -/
  node : ∀ c ∈ s.calls, ∀ node written, c.pc = .writing node written →
    node < s.disk.texts.length ∧ ∀ p, s.disk.names p = some node → p = c.upload.path
  filled : ∀ p text, s.disk.read p = some text →
    (∃ u ∈ s.uploads, u.path = p) ∧ FilledBy (Puts s.uploads p) text
  present : ∀ u ∈ s.uploads, ∀ id, u.target = .avatar id → ∃ text, s.disk.read u.path = some text
  avatar : ∀ id url, s.avatars id = some (some url) →
    ∃ u ∈ s.uploads, u.target = .avatar id ∧ u.url = url
  answer : ∀ c ∈ s.calls, ∀ url, c.pc = .answered (.ok url) → url = c.upload.url
  failed : ∀ c ∈ s.calls, ∀ e, c.pc = .failed e →
    e.status = 500 ∧ ∃ id, c.upload.target = .image id

variable {i : Nat} {c : Call} {u : Upload} {pc : Pc}

theorem mem_uploads (h : c ∈ s.calls) : c.upload ∈ s.uploads := List.mem_map_of_mem h

/-- A call that goes on is a call for the same upload. -/
theorem uploads_goto (hi : s.calls[i]? = some c) (pc : Pc) :
    (s.goto i c pc).uploads = s.uploads := by
  have hset : (s.goto i c pc).uploads = s.uploads.set i c.upload := List.map_set
  have hget : s.uploads[i]? = some c.upload := by rw [State.uploads, List.getElem?_map, hi]; rfl
  rw [hset]
  refine List.ext_getElem? fun j => ?_
  by_cases hij : i = j
  · rw [← hij, getElem?_set_of_some hget, hget]
  · exact List.getElem?_set_ne hij

theorem mem_goto {d : Call} (h : d ∈ (s.goto i c pc).calls) : d ∈ s.calls ∨ d = { c with pc } :=
  List.mem_or_eq_of_mem_set h

theorem uploads_concat (calls : List Call) : (calls ++ [c]).map Call.upload =
    calls.map Call.upload ++ [c.upload] := by
  rw [List.map_append, List.map_singleton]

theorem Accounted.goto (h : Accounted s) (hi : s.calls[i]? = some c)
    (hnode : ∀ node written, pc = .writing node written →
      node < s.disk.texts.length ∧ ∀ p, s.disk.names p = some node → p = c.upload.path)
    (hanswer : ∀ url, pc = .answered (.ok url) → url = c.upload.url)
    (hfailed : ∀ e, pc = .failed e → e.status = 500 ∧ ∃ id, c.upload.target = .image id) :
    Accounted (s.goto i c pc) := by
  have huploads := uploads_goto hi pc
  constructor
  · rw [huploads]
    exact h.checked
  · intro d hd
    rcases mem_goto hd with hd | rfl
    · exact h.node d hd
    · exact hnode
  · rw [huploads]
    exact h.filled
  · rw [huploads]
    exact h.present
  · rw [huploads]
    exact h.avatar
  · intro d hd
    rcases mem_goto hd with hd | rfl
    · exact h.answer d hd
    · exact hanswer
  · intro d hd
    rcases mem_goto hd with hd | rfl
    · exact h.failed d hd
    · exact hfailed

theorem FilledBy.concat {uploads : List Upload} {p text : Bytes}
    (h : FilledBy (Puts uploads p) text) (u : Upload) :
    FilledBy (Puts (uploads ++ [u]) p) text :=
  h.mono fun _ _ hput => hput.imp fun _ hv => ⟨List.mem_append_left _ hv.1, hv.2⟩

/-- A call begins whose file is opened. -/
theorem Accounted.opened (h : Accounted s) (hu : u.Checked) : Accounted (s.opened u) := by
  have huploads : (s.opened u).uploads = s.uploads ++ [u] := uploads_concat s.calls
  have hmem {v : Upload} (hv : v ∈ s.uploads) : v ∈ s.uploads ++ [u] := List.mem_append_left _ hv
  have hself : u ∈ s.uploads ++ [u] := List.mem_append_right _ (List.mem_singleton_self u)
  constructor
  · rw [huploads]
    exact forall_mem_concat h.checked hu
  · intro c hc node written hpc
    rcases List.mem_append.1 hc with hc | hc
    · obtain ⟨hlt, hnames⟩ := h.node c hc node written hpc
      exact ⟨hlt.trans_le Disk.length_openTrunc,
        fun p hp => hnames p (Disk.names_of_openTrunc hp hlt)⟩
    · rw [List.mem_singleton.1 hc] at hpc ⊢
      cases hpc
      have hself := @Disk.names_openTrunc_self s.disk u.path
      exact ⟨(s.opened u).disk.lt _ _ hself, fun p hp => (s.opened u).disk.inj _ _ _ hp hself⟩
  · rw [huploads]
    intro p text hp
    by_cases hpath : p = u.path
    · rw [hpath] at hp
      rw [show (s.opened u).disk.read u.path = some [] from Disk.read_openTrunc_self,
        Option.some.injEq] at hp
      rw [← hp]
      exact ⟨⟨u, hself, hpath.symm⟩, filledBy_nil⟩
    · rw [show (s.opened u).disk.read p = s.disk.read p from
        Disk.read_openTrunc_of_ne hpath] at hp
      obtain ⟨⟨v, hv, hvp⟩, hfilled⟩ := h.filled p text hp
      exact ⟨⟨v, hmem hv, hvp⟩, FilledBy.concat hfilled u⟩
  · rw [huploads]
    intro v hv id hid
    by_cases hpath : v.path = u.path
    · rw [hpath]
      exact ⟨[], Disk.read_openTrunc_self⟩
    · rcases List.mem_append.1 hv with hv | hv
      · obtain ⟨text, htext⟩ := h.present v hv id hid
        exact ⟨text, (Disk.read_openTrunc_of_ne hpath).trans htext⟩
      · exact absurd (congrArg Upload.path (List.mem_singleton.1 hv)) hpath
  · rw [huploads]
    intro id url hurl
    obtain ⟨v, hv, hvid⟩ := h.avatar id url hurl
    exact ⟨v, hmem hv, hvid⟩
  · exact forall_mem_concat h.answer nofun
  · exact forall_mem_concat h.failed nofun

/-- A call begins that failed before its file was open. -/
theorem Accounted.refused (h : Accounted s) (hu : u.Checked) {id : Bytes}
    (himage : u.target = .image id) {e : Envelope} (he : e.status = 500) :
    Accounted { s with calls := s.calls ++ [⟨u, .failed e⟩] } := by
  have hmem {v : Upload} (hv : v ∈ s.uploads) : v ∈ s.uploads ++ [u] := List.mem_append_left _ hv
  have huploads : State.uploads { s with calls := s.calls ++ [⟨u, .failed e⟩] } =
    s.uploads ++ [u] := uploads_concat s.calls
  constructor
  · rw [huploads]
    exact forall_mem_concat h.checked hu
  · exact forall_mem_concat h.node nofun
  · rw [huploads]
    intro p text hp
    obtain ⟨⟨v, hv, hvp⟩, hfilled⟩ := h.filled p text hp
    exact ⟨⟨v, hmem hv, hvp⟩, FilledBy.concat hfilled u⟩
  · rw [huploads]
    refine forall_mem_concat h.present fun id' hid' => ?_
    rw [himage] at hid'
    cases hid'
  · rw [huploads]
    intro id url hurl
    obtain ⟨v, hv, hvid⟩ := h.avatar id url hurl
    exact ⟨v, hmem hv, hvid⟩
  · exact forall_mem_concat h.answer nofun
  · refine forall_mem_concat h.failed fun e' he' => ?_
    cases he'
    exact ⟨he, id, himage⟩

/-- The bytes of a call are written. -/
theorem Accounted.write (h : Accounted s) (hc : c ∈ s.calls) {node written : Nat}
    (hpc : c.pc = .writing node written) (n : Nat) :
    Accounted { s with
      disk := s.disk.write node written ((c.upload.content.drop written).take n) } := by
  obtain ⟨-, hnames⟩ := h.node c hc node written hpc
  refine { h with node := ?_, filled := ?_, present := ?_ }
  · intro d hd m w hm
    obtain ⟨hlt, hp⟩ := h.node d hd m w hm
    exact ⟨hlt.trans_eq List.length_set.symm, hp⟩
  · intro p text hp
    by_cases hnode : s.disk.names p = some node
    · obtain ⟨old, hold⟩ := Disk.exists_read hnode
      obtain ⟨hu, hfilled⟩ := h.filled p old hold
      rw [Disk.read_write_self hnode hold, Option.some.injEq] at hp
      rw [← hp]
      refine ⟨hu, FilledBy.writeBytes hfilled fun i b hb => ?_⟩
      refine ⟨c.upload, mem_uploads hc, (hnames p hnode).symm, ?_⟩
      rw [List.getElem?_take] at hb
      split_ifs at hb
      rwa [List.getElem?_drop] at hb
    · rw [Disk.read_write_of_ne hnode] at hp
      exact h.filled p text hp
  · intro v hv id hid
    obtain ⟨text, htext⟩ := h.present v hv id hid
    obtain ⟨m, hm, -⟩ := Disk.read_eq_some_iff.1 htext
    exact Disk.exists_read (show (s.disk.write _ _ _).names v.path = some m from hm)

/-- The file of an image is removed. -/
theorem Accounted.remove (h : Accounted s) (hu : u ∈ s.uploads) {id : Bytes}
    (himage : u.target = .image id) : Accounted { s with disk := s.disk.remove u.path } := by
  have hread {p text : Bytes} (hp : (s.disk.remove u.path).read p = some text) :
      s.disk.read p = some text := by
    by_cases hpath : p = u.path
    · rw [hpath, Disk.read_remove_self] at hp
      cases hp
    · rwa [Disk.read_remove_of_ne hpath] at hp
  refine { h with node := ?_, filled := ?_, present := ?_ }
  · intro c hc node written hpc
    obtain ⟨hlt, hnames⟩ := h.node c hc node written hpc
    refine ⟨hlt, fun p hp => hnames p ?_⟩
    by_cases hpath : p = u.path
    · rw [hpath, Disk.remove] at hp
      simp at hp
    · rwa [Disk.names_remove_of_ne hpath] at hp
  · exact fun p text hp => h.filled p text (hread hp)
  · intro v hv id' hid'
    obtain ⟨text, htext⟩ := h.present v hv id' hid'
    refine ⟨text, (Disk.read_remove_of_ne fun hpath => ?_).trans htext⟩
    have htarget := ((h.checked v hv).path_inj (h.checked u hu) hpath).1
    rw [hid', himage] at htarget
    cases htarget

/-- The row of a user is changed. -/
theorem Accounted.changed (h : Accounted s) (hu : u ∈ s.uploads) {userId : Int}
    (htarget : u.target = .avatar userId) : Accounted { s with
      avatars := fun id => if id = userId then some (some u.url) else s.avatars id } := by
  refine { h with avatar := fun id url hurl => ?_ }
  dsimp only at hurl
  split_ifs at hurl with hid
  · cases hurl
    exact ⟨u, hu, hid ▸ htarget, rfl⟩
  · exact h.avatar id url hurl

theorem Accounted.registered (h : Accounted s) (userId : Int) : Accounted { s with
    avatars := fun id => if id = userId then some none else s.avatars id } := by
  refine { h with avatar := fun id url hurl => ?_ }
  dsimp only at hurl
  split_ifs at hurl with hid
  · cases hurl
  · exact h.avatar id url hurl

theorem Accounted.step (h : Accounted s) (hs : step s a = some s') : Accounted s' := by
  cases moves_of_step hs with
  | idle => exact h
  | opened hu _ => exact h.opened hu
  | refused he hu _ himage => exact h.refused hu himage he
  | @write i node written n c hi hpc _ =>
    have hc := List.mem_of_getElem? hi
    refine (h.write hc hpc n).goto hi (fun m w hm => ?_) nofun nofun
    cases hm
    exact (h.write hc hpc n).node c hc node written hpc
  | @complete i node c hi hpc =>
    rw [Upload.complete]
    split
    · exact h.goto hi nofun nofun nofun
    · refine h.goto hi nofun (fun url hm => ?_) nofun
      cases hm
      rfl
  | @broken i node written c hi hpc =>
    rw [Upload.broken]
    split
    case h_1 => exact h.goto hi nofun nofun nofun
    case h_2 uuid htarget =>
      refine h.goto hi nofun nofun fun e he => ?_
      cases he
      exact ⟨rfl, uuid, htarget⟩
  | kept hi hpc => exact h.goto hi nofun nofun nofun
  | @removed i c e hi hpc =>
    have hc := List.mem_of_getElem? hi
    obtain ⟨-, id, himage⟩ := h.failed c hc e hpc
    exact (h.remove (mem_uploads hc) himage).goto hi nofun nofun nofun
  | threw what hi hpc => exact h.goto hi nofun nofun nofun
  | unchanged hi hpc => exact h.goto hi nofun nofun nofun
  | @changed i c userId hi hpc htarget =>
    have hu := mem_uploads (List.mem_of_getElem? hi)
    refine (h.changed hu htarget).goto hi nofun (fun url hm => ?_) nofun
    cases hm
    rfl
  | registered userId => exact h.registered userId

theorem accounted_of_init (h : system.init s) : Accounted s := by
  obtain ⟨hdisk, hcalls, havatars⟩ := h
  have huploads : s.uploads = [] := congrArg (List.map Call.upload) hcalls
  constructor
  · simp [huploads]
  · simp [hcalls]
  · intro p text hp
    rw [hdisk] at hp
    cases hp
  · simp [huploads]
  · exact fun id url hurl => absurd hurl (havatars id url)
  · simp [hcalls]
  · simp [hcalls]

/-- The avatar of a user, and the files. -/
structure Safe (s : State) : Prop where
  /-- The avatar of a user is served, and has the bytes of pictures of its format that the user
      uploaded as avatars, each where it is in its picture, with zeros in between. -/
  avatar : ∀ id url, s.avatars id = some (some url) → ∃ ext text path,
    served url = some path ∧ s.disk.read path = some text ∧ (ext = .jpg ∨ ext = .png) ∧
      FilledBy (fun i b => ∃ u ∈ s.uploads, u.target = .avatar id ∧ u.ext.Starts u.content ∧
        u.ext = ext ∧ u.content[i]? = some b) text
  /-- A file is that of an upload with its format. -/
  file : ∀ path text, s.disk.read path = some text → ∃ u ∈ s.uploads, u.path = path ∧ u.Checked
  /-- The answer to an upload leads to its file. -/
  answer : ∀ c ∈ s.calls, ∀ url, c.pc = .answered (.ok url) → served url = some c.upload.path

/-- A user has a row, and nothing was uploaded. -/
def oneUser : State := ⟨Disk.empty, fun id => if id = 1 then some none else none, []⟩

/-- The claims of the user. -/
def alice : Claims := ⟨bytes "1", bytes "alice", .user⟩

/-- The call has its answer. -/
def Call.done (c : Call) : Bool :=
  match c.pc with
  | .answered _ => true
  | _ => false

/-- No UUID comes a second time, and nobody uploads an avatar while another one of his is on its
    way. -/
def Alone (s : State) : Action → Prop
  | .avatar claims .. => ∀ c ∈ s.calls, ∀ id ∈ stoi claims.userId,
      c.upload.target = .avatar id → c.done = true
  | .image _ _ hi lo _ => ∀ c ∈ s.calls, c.upload.target ≠ .image (generateUuidV4 hi lo)
  | _ => True

instance (s : State) : (a : Action) → Decidable (Alone s a)
  | .avatar claims .. => inferInstanceAs (Decidable (∀ c ∈ s.calls, ∀ id ∈ stoi claims.userId,
      c.upload.target = .avatar id → c.done = true))
  | .image _ _ hi lo _ => inferInstanceAs (Decidable (∀ c ∈ s.calls,
      c.upload.target ≠ .image (generateUuidV4 hi lo)))
  | .write .. | .close .. | .remove .. | .update .. | .register _ => isTrue trivial

/-- The file is complete, also if the row had its URL before. -/
def Call.Written (c : Call) : Prop :=
  c.pc = .closed ∨ (∃ url, c.pc = .answered (.ok url)) ∨ c.pc = .answered (.error userNotFound)

/-- No upload after the one with the number `i` is for its file. -/
def State.Last (s : State) (i : Nat) (u : Upload) : Prop :=
  ∀ (j : Nat) (v), i < j → s.uploads[j]? = some v → v.path ≠ u.path

/-- What a call has written is what its file holds. -/
structure Holds (d : Disk) (c : Call) : Prop where
  writing : ∀ node written, c.pc = .writing node written → d.names c.upload.path = some node ∧
    d.read c.upload.path = some (c.upload.content.take written)
  written : c.Written → d.read c.upload.path = some c.upload.content

/-- The files belong to the calls that were the last to open them. -/
structure Tidy (s : State) : Prop where
  holds : ∀ (i : Nat) (c), s.calls[i]? = some c → s.Last i c.upload → Holds s.disk c
  /-- A file that is opened again is that of an avatar, whose upload is over. -/
  again : ∀ (i j : Nat) (c v), s.calls[i]? = some c → s.uploads[j]? = some v → i < j →
    v.path = c.upload.path → c.done = true ∧ ∃ id, c.upload.target = .avatar id

theorem getElem?_uploads (hi : s.calls[i]? = some c) : s.uploads[i]? = some c.upload := by
  rw [State.uploads, List.getElem?_map, hi]
  rfl

/-- A call that is not over is the last one for its file. -/
theorem Tidy.last (h : Tidy s) (hi : s.calls[i]? = some c) (hc : c.done = false) :
    s.Last i c.upload := by
  intro j v hij hj hpath
  have hdone := (h.again i j c v hi hj hij hpath).1
  rw [hc] at hdone
  cases hdone

/-- No other call that is the last one is for the file of a call that is not over. -/
theorem Tidy.path_ne (h : Tidy s) (hi : s.calls[i]? = some c) (hc : c.done = false) {k : Nat}
    {d : Call} (hk : s.calls[k]? = some d) (hki : k ≠ i) (hlast : s.Last k d.upload) :
    d.upload.path ≠ c.upload.path := by
  intro hpath
  rcases Nat.lt_or_gt_of_ne hki with hlt | hgt
  · exact hlast i _ hlt (getElem?_uploads hi) hpath.symm
  · exact h.last hi hc k _ hgt (getElem?_uploads hk) hpath

/-- What another file holds does not matter. -/
theorem Holds.congr {d d' : Disk} (h : Holds d c)
    (hnames : d'.names c.upload.path = d.names c.upload.path)
    (hread : d'.read c.upload.path = d.read c.upload.path) : Holds d' c := by
  constructor
  · intro node written hpc
    rw [hnames, hread]
    exact h.writing node written hpc
  · intro hw
    rw [hread]
    exact h.written hw

/-- A call goes on, and nothing happens to the files of the others. -/
theorem Tidy.goto (h : Tidy s) (hi : s.calls[i]? = some c) (hc : c.done = false) {disk : Disk}
    (hother : ∀ p ≠ c.upload.path, disk.names p = s.disk.names p ∧ disk.read p = s.disk.read p)
    (hholds : Holds s.disk c → Holds disk { c with pc }) :
    Tidy { s.goto i c pc with disk } := by
  have huploads : State.uploads { s.goto i c pc with disk } = s.uploads := uploads_goto hi pc
  constructor
  · intro k d hk hl
    rw [State.Last, huploads] at hl
    rcases getElem?_set_cases hk with ⟨rfl, rfl⟩ | ⟨hki, hk⟩
    · exact hholds (h.holds k c hi hl)
    · obtain ⟨hnames, hread⟩ := hother _ (h.path_ne hi hc hk hki hl)
      exact (h.holds k d hk hl).congr hnames hread
  · rw [huploads]
    intro k j d v hk hj hkj hpath
    rcases getElem?_set_cases hk with ⟨rfl, rfl⟩ | ⟨hki, hk⟩
    · exact absurd hpath (h.last hi hc j v hkj hj)
    · exact h.again k j d v hk hj hkj hpath

/-- A call begins, and nothing happens to the files of the others. -/
theorem Tidy.concat (h : Tidy s) {disk : Disk}
    (hagain : ∀ d ∈ s.calls, c.upload.path = d.upload.path →
      d.done = true ∧ ∃ id, d.upload.target = .avatar id)
    (hother : ∀ p ≠ c.upload.path, disk.names p = s.disk.names p ∧ disk.read p = s.disk.read p)
    (hholds : Holds disk c) : Tidy { s with disk, calls := s.calls ++ [c] } := by
  have huploads : State.uploads { s with disk, calls := s.calls ++ [c] } =
    s.uploads ++ [c.upload] := uploads_concat s.calls
  have hlength : s.uploads.length = s.calls.length := List.length_map _
  constructor
  · intro k d hk hl
    rw [State.Last, huploads] at hl
    rcases getElem?_concat_cases hk with hk | ⟨rfl, rfl⟩
    · have hne : d.upload.path ≠ c.upload.path := by
        refine (hl s.uploads.length c.upload ?_ List.getElem?_concat_length).symm
        rw [hlength]
        exact (List.getElem?_eq_some_iff.1 hk).1
      obtain ⟨hnames, hread⟩ := hother _ hne
      refine (h.holds k d hk fun j v hkj hj => ?_).congr hnames hread
      exact hl j v hkj (getElem?_append_of_some hj)
    · exact hholds
  · rw [huploads]
    intro k j d v hk hj hkj hpath
    rcases getElem?_concat_cases hk with hk | ⟨rfl, rfl⟩
    · rcases getElem?_concat_cases hj with hj | ⟨-, rfl⟩
      · exact h.again k j d v hk hj hkj hpath
      · exact hagain d (List.mem_of_getElem? hk) hpath
    · have hj' := (List.getElem?_eq_some_iff.1 hj).1
      rw [List.length_append, List.length_singleton, hlength] at hj'
      omega

theorem done_of_writing {node written : Nat} (hpc : c.pc = .writing node written) :
    c.done = false := by
  rw [Call.done, hpc]

theorem done_of_failed {e : Envelope} (hpc : c.pc = .failed e) : c.done = false := by
  rw [Call.done, hpc]

theorem done_of_closed (hpc : c.pc = .closed) : c.done = false := by
  rw [Call.done, hpc]

/-- An upload that is answered with an error of the server promises nothing. -/
theorem holds_error (d : Disk) (u : Upload) {e : Envelope} (he : e.status = 500) :
    Holds d ⟨u, .answered (.error e)⟩ := by
  refine ⟨nofun, fun hw => ?_⟩
  rcases hw with hw | ⟨url, hw⟩ | hw
  · cases hw
  · cases hw
  · cases hw
    cases he

theorem holds_failed (d : Disk) (u : Upload) (e : Envelope) : Holds d ⟨u, .failed e⟩ := by
  refine ⟨nofun, fun hw => ?_⟩
  rcases hw with hw | ⟨url, hw⟩ | hw <;> cases hw

/-- A file that is closed is complete. -/
theorem holds_of_read {d : Disk} (hread : d.read u.path = some u.content)
    (hpc : ∀ node written, pc ≠ .writing node written) : Holds d ⟨u, pc⟩ :=
  ⟨fun node written h => absurd h (hpc node written), fun _ => hread⟩

/-- Only an avatar is uploaded again, and not before its upload is over. -/
theorem again_of_alone (h : Accounted s) (hg : Alone s a) (hu : u.Checked) (ha : Aims a u.target) :
    ∀ d ∈ s.calls, u.path = d.upload.path →
      d.done = true ∧ ∃ id, d.upload.target = .avatar id := by
  intro d hd hpath
  have htarget := (hu.path_inj (h.checked _ (mem_uploads hd)) hpath).1
  cases a with
  | avatar claims file fault =>
    obtain ⟨id, hid, hu⟩ := ha
    have hdid := htarget.symm.trans hu
    exact ⟨hg d hd id hid hdid, id, hdid⟩
  | image claims file hi lo fault => exact absurd (htarget.symm.trans ha) (hg d hd)
  | write i n => cases ha
  | close i ok => cases ha
  | remove i ok => cases ha
  | update i fault => cases ha
  | register userId => cases ha

theorem Tidy.step (h : Tidy s) (hacc : Accounted s) (hg : Alone s a) (hs : step s a = some s') :
    Tidy s' := by
  have hsame : ∀ p : Bytes, s.disk.names p = s.disk.names p ∧ s.disk.read p = s.disk.read p :=
    fun p => ⟨rfl, rfl⟩
  cases moves_of_step hs with
  | idle => exact h
  | @opened _ u hu ha =>
    refine h.concat (again_of_alone hacc hg hu ha) (fun p hp =>
      ⟨Disk.names_openTrunc_of_ne hp, Disk.read_openTrunc_of_ne hp⟩) ⟨?_, ?_⟩
    · intro node written hpc
      cases hpc
      exact ⟨Disk.names_openTrunc_self, Disk.read_openTrunc_self⟩
    · intro hw
      rcases hw with hw | ⟨url, hw⟩ | hw <;> cases hw
  | @refused _ u id e he hu ha himage =>
    exact h.concat (again_of_alone hacc hg hu ha) (fun p _ => hsame p) (holds_failed _ u e)
  | @write i node written n c hi hpc hn =>
    have hnames := (hacc.node c (List.mem_of_getElem? hi) node written hpc).2
    refine h.goto hi (done_of_writing hpc) (fun p hp =>
      ⟨rfl, Disk.read_write_of_ne fun hnode => hp (hnames p hnode)⟩) fun hold => ⟨?_, ?_⟩
    · intro m w hm
      cases hm
      obtain ⟨hnode, hread⟩ := hold.writing node written hpc
      refine ⟨hnode, (Disk.read_write_self hnode hread).trans ?_⟩
      rw [writeBytes_take n (by omega)]
    · intro hw
      rcases hw with hw | ⟨url, hw⟩ | hw <;> cases hw
  | @complete i node c hi hpc =>
    refine h.goto hi (done_of_writing hpc) (fun p _ => hsame p) fun hold => ?_
    have hread := (hold.writing node _ hpc).2
    rw [List.take_length] at hread
    refine holds_of_read hread fun m w hm => ?_
    rw [Upload.complete] at hm
    split at hm <;> cases hm
  | @broken i node written c hi hpc =>
    refine h.goto hi (done_of_writing hpc) (fun p _ => hsame p) fun _ => ?_
    rw [Upload.broken]
    split
    · exact holds_error _ _ rfl
    · exact holds_failed _ _ _
  | @kept i c e hi hpc =>
    have he := (hacc.failed c (List.mem_of_getElem? hi) e hpc).1
    exact h.goto hi (done_of_failed hpc) (fun p _ => hsame p) fun _ => holds_error _ _ he
  | @removed i c e hi hpc =>
    have he := (hacc.failed c (List.mem_of_getElem? hi) e hpc).1
    exact h.goto hi (done_of_failed hpc) (fun p hp =>
      ⟨Disk.names_remove_of_ne hp, Disk.read_remove_of_ne hp⟩) fun _ => holds_error _ _ he
  | threw what hi hpc =>
    exact h.goto hi (done_of_closed hpc) (fun p _ => hsame p) fun _ => holds_error _ _ rfl
  | unchanged hi hpc =>
    exact h.goto hi (done_of_closed hpc) (fun p _ => hsame p) fun hold =>
      holds_of_read (hold.written (.inl hpc)) nofun
  | @changed i c userId hi hpc htarget =>
    have hgoto : Tidy (s.goto i c (.answered (.ok c.upload.url))) :=
      h.goto hi (done_of_closed hpc) (fun p _ => hsame p) fun hold =>
        holds_of_read (hold.written (.inl hpc)) nofun
    exact ⟨hgoto.holds, hgoto.again⟩
  | registered userId => exact ⟨h.holds, h.again⟩

/-- The pictures that were uploaded. -/
structure Kept (s : State) : Prop where
  /-- An image whose URL was given out is served as it was uploaded, in the format of its name. -/
  image : ∀ c ∈ s.calls, ∀ id url, c.upload.target = .image id → c.pc = .answered (.ok url) →
    ∃ path, served url = some path ∧ s.disk.read path = some c.upload.content ∧
      c.upload.ext.Starts c.upload.content
  /-- So is the avatar that was uploaded last, also when the row had its URL before. -/
  avatar : ∀ (i : Nat) (c) (id), s.calls[i]? = some c → c.upload.target = .avatar id → c.Written →
    s.Last i c.upload →
    ∃ path, served c.upload.url = some path ∧ s.disk.read path = some c.upload.content

end LiteCode.Uploads
