import TacoBack.Lib.Transition
import TacoBack.Lib.Redis
import TacoBack.Lib.Mongo
import TacoBack.Friends.Consumption
import TacoBack.Friends.Senders
import TacoBack.Friends.Removed
import TacoBack.Friends.Expiry
import TacoBack.Friends.Pages
import TacoBack.Friends.Accepting
import TacoBack.Request.Paging
import TacoBack.Request.Refinement
import TacoBack.Request.Isolation
import TacoBack.Request.Listing
import TacoBack.Request.Naming
import TacoBack.Notice.Delivery
import TacoBack.Notice.Reading
import TacoBack.BlackList.Listing
import TacoBack.Account.Password
import TacoBack.Account.Session
import TacoBack.Account.Registration
import TacoBack.Account.Refresh
import TacoBack.Account.Cache
import TacoBack.Account.Reset
import TacoBack.Account.Alive
import TacoBack.Account.TokenKey
import TacoBack.Account.Reporting
import TacoBack.Users.Reads
import TacoBack.Users.Emails
import TacoBack.Common.DtoPipe
import TacoBack.Jwt.Readers
import TacoBack.Account.Validity
import TacoBack.Config.Lookup
import TacoBack.Account.Answers
import TacoBack.App.Types
import TacoBack.Friends.Answers
import TacoBack.Friends.Deadline
import TacoBack.Friends.Listing
import TacoBack.Account.Ledger
import TacoBack.Account.Sequential
import TacoBack.Account.Progress
import TacoBack.Request.Text
import TacoBack.Account.Recovery
import TacoBack.Account.Bystander
import TacoBack.Request.Bodies
