/-!
The names that users and channels go by.
-/

namespace ChatHub

/-- An authenticated user, who may hold any number of connections. -/
abbrev UserId := String

/-- A text channel or a voice room; the two share one space of names. -/
abbrev ChannelId := String

end ChatHub
