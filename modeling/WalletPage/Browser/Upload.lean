import WalletPage.Browser.Elements
import WalletPage.Render.UploadStatus

/-! Uploading the consensus set: the form is sent, a popup shows how far it has
come, and in the end the page is loaded anew. -/

namespace WalletPage.Browser

/-- The source of the log lines about uploads. -/
def uploadComponent : Component := ⟨.infrastructure, "Upload"⟩

/-- The form that is uploaded. -/
def uploadForm : String := "consensusSetFile"

/-- The form that loads the page anew. -/
def reloadForm : String := "reload"

/-- Shows a text in the popup. -/
def showStatus (b : Browser) (text : String) : Browser :=
  match b.applyUpdate (.text (.id "popup_content") text) with
  | (.ok _, b) => b
  | (.error p, b) => b.log .warn uploadComponent p.detail

/-- Shows that an upload has failed. -/
def uploadFailed (b : Browser) (reason : String) : Browser :=
  (b.log .warn uploadComponent ("Consensus upload failed: " ++ reason)).showStatus uploadFailedText

/-- A call that threw. -/
def callFailure (text : String) : Problem :=
  ExternalProblem.browserApi (shownText text)

/-- Starts an upload. An upload that cannot be sent was made nevertheless. -/
def startUpload (b : Browser) : Fallible Unit × Browser :=
  match b.form? uploadForm with
  | none => (.error (UiProblem.elementNotFound ("#" ++ uploadForm)), b)
  | some form =>
    match b.thrown? .formData, b.thrown? .xmlHttpRequest with
    | some text, _ => (.error (callFailure text), b)
    | none, some text => (.error (callFailure text), b)
    | none, none =>
      match b.thrown? .upload with
      | some text => (.error (callFailure text), { b with uploads := b.uploads ++ [{}] })
      | none =>
        let upload : Upload := { isWatched := true, awaited := [.load, .error, .abort] }
        let b := { b with uploads := b.uploads ++ [upload] }
        match b.thrown? .openRequest with
        | some text => (.error (callFailure text), b)
        | none =>
          let b := b.emit (.uploadOpened form.action)
          match b.thrown? .send with
          | some text => (.error (callFailure text), b)
          | none =>
            (.ok (), (b.emit (.uploadSent form.name)).log .info uploadComponent
              "Consensus upload started")

/-- An upload tells how far it has come. -/
def uploadProgress (b : Browser) (index : Nat) (loaded total : Float) : Browser :=
  if (b.uploads[index]?).any (·.isWatched) then
    b.showStatus (uploadText (uploadPercent loaded total))
  else b

/-- Shows that an upload is complete, and loads the page anew. -/
def uploadCompleted (b : Browser) : Browser :=
  let b := (b.showStatus (uploadText 100)).log .info uploadComponent "Consensus upload completed"
  match b.submitForm reloadForm with
  | (true, b) => b
  | (false, b) => b.log .warn uploadComponent ("#" ++ reloadForm ++ " form is missing")

/-- What follows from the end of an upload. -/
def finishUpload (b : Browser) : UploadEnd → Browser
  | .load => b.uploadCompleted
  | .error => b.uploadFailed "error"
  | .abort => b.uploadFailed "abort"

/-- An upload comes to an end; each of its ends counts once. -/
def uploadEnds (b : Browser) (index : Nat) (ending : UploadEnd) : Browser :=
  match b.uploads[index]? with
  | some upload =>
    if upload.awaited.contains ending then
      let upload := { upload with awaited := upload.awaited.filter (· ≠ ending) }
      { b with uploads := b.uploads.set index upload }.finishUpload ending
    else b
  | none => b

end WalletPage.Browser
