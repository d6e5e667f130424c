import SplNet.Java.Text

/-!
# Users

The object `User`. Users are compared by identity and queue each other, so a user is referred to by
a reference (`UserRef`) and its two user queues are lists of references; the objects themselves live
in the server state. The queues are unbounded and are only ever appended to, searched, and stripped
of a first occurrence.

The field the source calls `followers` holds the users **this** user follows.
-/

namespace SplNet

/-- A reference to a `User` object. -/
abbrev UserRef := ℕ

/-- A `User` object. -/
structure User where
  username : JString
  password : JString
  birthday : JString
  isActivated : Bool
  connId : ℤ
  followers : List UserRef
  awaitingPosts : List JString
  following : Int16
  blockingUsers : List UserRef
deriving DecidableEq

namespace User

/-- `new User(username, password, birthday)`. -/
def new (username password birthday : JString) : User where
  username := username
  password := password
  birthday := birthday
  isActivated := false
  connId := -1
  followers := []
  awaitingPosts := []
  following := 0
  blockingUsers := []

def activate (u : User) : User := { u with isActivated := true }

def deActivate (u : User) : User := { u with isActivated := false }

def setConnId (connId : ℤ) (u : User) : User := { u with connId := connId }

def addFollower (r : UserRef) (u : User) : User := { u with followers := u.followers ++ [r] }

/-- `followers.remove(user)` drops the first occurrence. -/
def removeFollower (r : UserRef) (u : User) : User := { u with followers := u.followers.erase r }

def incrementFollowing (u : User) : User := { u with following := u.following + 1 }

def decreaseFollowing (u : User) : User := { u with following := u.following - 1 }

/-- `getBlockingUsers().add(user)`. -/
def addBlockingUser (r : UserRef) (u : User) : User :=
  { u with blockingUsers := u.blockingUsers ++ [r] }

/-- `getAwaitingPosts().add(post)`. -/
def addAwaitingPost (post : JString) (u : User) : User :=
  { u with awaitingPosts := u.awaitingPosts ++ [post] }

end User

end SplNet
